/-! # Instructions

The thirty-five instructions of the CHIP-8 instruction set with their operands pulled out, and one
more constructor for the words outside it.  Operands are plain bytes and words, so an instruction
built by hand may name register 200 or address `0xFFFF`; what the decoder makes is narrower, and
`Instruction.WellFormed` says how much.
-/

namespace Chip8

/-- One instruction.  `x` and `y` name registers, `kk` is a byte constant, `n` a small constant and
    `addr` an address. -/
inductive Instruction where
  /-- `0NNN`: call a machine code routine.  There is nothing to run it on, so it does nothing. -/
  | sys (addr : UInt16)
  /-- `00E0`: turn every pixel off. -/
  | clearScreen
  /-- `00EE`: go back to the caller. -/
  | ret
  /-- `1NNN`: go to an address. -/
  | jump (addr : UInt16)
  /-- `2NNN`: go to an address and remember where to come back to. -/
  | call (addr : UInt16)
  /-- `3XKK`: skip the next instruction if the register holds the constant. -/
  | skipIfByte (x kk : UInt8)
  /-- `4XKK`: skip the next instruction unless the register holds the constant. -/
  | skipUnlessByte (x kk : UInt8)
  /-- `5XY0`: skip the next instruction if the registers agree. -/
  | skipIfSame (x y : UInt8)
  /-- `6XKK`: load a constant. -/
  | loadByte (x kk : UInt8)
  /-- `7XKK`: add a constant; no flag is written. -/
  | addByte (x kk : UInt8)
  /-- `8XY0`: copy the second register to the first. -/
  | copy (x y : UInt8)
  /-- `8XY1`: bitwise or. -/
  | or (x y : UInt8)
  /-- `8XY2`: bitwise and. -/
  | and (x y : UInt8)
  /-- `8XY3`: bitwise exclusive or. -/
  | xor (x y : UInt8)
  /-- `8XY4`: sum, with the carry in the flag. -/
  | add (x y : UInt8)
  /-- `8XY5`: first minus second. -/
  | sub (x y : UInt8)
  /-- `8XY6`: shift the first register right; the second is ignored. -/
  | shiftRight (x y : UInt8)
  /-- `8XY7`: second minus first, into the first. -/
  | subReverse (x y : UInt8)
  /-- `8XYE`: shift the first register left; the second is ignored. -/
  | shiftLeft (x y : UInt8)
  /-- `9XY0`: skip the next instruction unless the registers agree. -/
  | skipUnlessSame (x y : UInt8)
  /-- `ANNN`: load the index register. -/
  | loadIndex (addr : UInt16)
  /-- `BNNN`: go to an address plus V0. -/
  | jumpOffset (addr : UInt16)
  /-- `CXKK`: a random byte, masked by the constant. -/
  | random (x kk : UInt8)
  /-- `DXYN`: draw a sprite of `n` rows from the index register at the position in two registers. -/
  | draw (x y n : UInt8)
  /-- `EX9E`: skip the next instruction if the key named by the register is down. -/
  | skipIfKey (x : UInt8)
  /-- `EXA1`: skip the next instruction unless the key named by the register is down. -/
  | skipUnlessKey (x : UInt8)
  /-- `FX07`: read the delay timer. -/
  | readDelay (x : UInt8)
  /-- `FX0A`: wait until exactly one key is down and keep its number. -/
  | awaitKey (x : UInt8)
  /-- `FX15`: set the delay timer. -/
  | setDelay (x : UInt8)
  /-- `FX18`: set the sound timer. -/
  | setSound (x : UInt8)
  /-- `FX1E`: add to the index register; no flag is written. -/
  | addIndex (x : UInt8)
  /-- `FX29`: point the index register at the glyph of a hexadecimal digit. -/
  | pointGlyph (x : UInt8)
  /-- `FX33`: store the three decimal digits of a register. -/
  | storeDecimal (x : UInt8)
  /-- `FX55`: store V0 up to the register. -/
  | saveRegisters (x : UInt8)
  /-- `FX65`: load V0 up to the register. -/
  | restoreRegisters (x : UInt8)
  /-- A word that is none of the above. -/
  | unknown (word : UInt16)
  deriving DecidableEq, Repr, Inhabited

end Chip8
