-- SUMMARY: `str.encode()`: UTF-8, which refuses a lone surrogate.
import DealScreening.Python.Hashlib

namespace Python

/-- The bytes of one character. -/
def utf8Char (c : Nat) : Bytes :=
  if c < 0x80 then [UInt8.ofNat c]
  else if c < 0x800 then [UInt8.ofNat (0xC0 + c / 0x40), UInt8.ofNat (0x80 + c % 0x40)]
  else if c < 0x10000 then
    [UInt8.ofNat (0xE0 + c / 0x1000), UInt8.ofNat (0x80 + c / 0x40 % 0x40),
      UInt8.ofNat (0x80 + c % 0x40)]
  else
    [UInt8.ofNat (0xF0 + c / 0x40000), UInt8.ofNat (0x80 + c / 0x1000 % 0x40),
      UInt8.ofNat (0x80 + c / 0x40 % 0x40), UInt8.ofNat (0x80 + c % 0x40)]

/-- `s.encode("utf-8")`. -/
def Str.encode (s : Str) : Except Error Bytes :=
  if s.any isSurrogate = true then .error .valueError else .ok (s.flatMap utf8Char)

end Python
