import Mathlib

/-!
# The reflected CRC-32

The remainder is shifted right one bit at a time, and the polynomial is added
whenever a one leaves it.
-/

namespace SavanXP.Library

open List

def crcPolynomial : UInt32 := 0xEDB88320

/-- One bit of the remainder. -/
def crcBit (crc : UInt32) : UInt32 :=
  (crc >>> 1) ^^^ (crcPolynomial &&& (0 - (crc &&& 1)))

/-- One byte of the data. -/
def crcByte (crc : UInt32) (byte : UInt8) : UInt32 :=
  crcBit^[8] (crc ^^^ byte.toUInt32)

/-- A checksum continued over more bytes. -/
def crc32Update (crc : UInt32) (data : List UInt8) : UInt32 :=
  ~~~(data.foldl crcByte (~~~crc))

def crc32 (data : List UInt8) : UInt32 :=
  crc32Update 0 data

example : crc32 [49, 50, 51, 52, 53, 54, 55, 56, 57] = 0xCBF43926 := by decide +kernel

end SavanXP.Library
