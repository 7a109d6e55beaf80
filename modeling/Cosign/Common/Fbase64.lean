import Cosign.Common.Mkcookie
import Cosign.Lib.Stores
/-!
# Base64 by tables

`fbase64_e` and `fbase64_d` look every character and every byte up in tables
of 256 entries. The tables hold what the formulas of `Mkcookie` compute, so
what is encoded decodes to itself and what is decoded encodes to itself.
-/

namespace Cosign

open Lib

/-! ## The tables -/

def etabHigh6Table : List Char :=
  ['A', 'A', 'A', 'A', 'B', 'B', 'B', 'B', 'C', 'C', 'C', 'C', 'D', 'D', 'D', 'D',
   'E', 'E', 'E', 'E', 'F', 'F', 'F', 'F', 'G', 'G', 'G', 'G', 'H', 'H', 'H', 'H',
   'I', 'I', 'I', 'I', 'J', 'J', 'J', 'J', 'K', 'K', 'K', 'K', 'L', 'L', 'L', 'L',
   'M', 'M', 'M', 'M', 'N', 'N', 'N', 'N', 'O', 'O', 'O', 'O', 'P', 'P', 'P', 'P',
   'Q', 'Q', 'Q', 'Q', 'R', 'R', 'R', 'R', 'S', 'S', 'S', 'S', 'T', 'T', 'T', 'T',
   'U', 'U', 'U', 'U', 'V', 'V', 'V', 'V', 'W', 'W', 'W', 'W', 'X', 'X', 'X', 'X',
   'Y', 'Y', 'Y', 'Y', 'Z', 'Z', 'Z', 'Z', 'a', 'a', 'a', 'a', 'b', 'b', 'b', 'b',
   'c', 'c', 'c', 'c', 'd', 'd', 'd', 'd', 'e', 'e', 'e', 'e', 'f', 'f', 'f', 'f',
   'g', 'g', 'g', 'g', 'h', 'h', 'h', 'h', 'i', 'i', 'i', 'i', 'j', 'j', 'j', 'j',
   'k', 'k', 'k', 'k', 'l', 'l', 'l', 'l', 'm', 'm', 'm', 'm', 'n', 'n', 'n', 'n',
   'o', 'o', 'o', 'o', 'p', 'p', 'p', 'p', 'q', 'q', 'q', 'q', 'r', 'r', 'r', 'r',
   's', 's', 's', 's', 't', 't', 't', 't', 'u', 'u', 'u', 'u', 'v', 'v', 'v', 'v',
   'w', 'w', 'w', 'w', 'x', 'x', 'x', 'x', 'y', 'y', 'y', 'y', 'z', 'z', 'z', 'z',
   '0', '0', '0', '0', '1', '1', '1', '1', '2', '2', '2', '2', '3', '3', '3', '3',
   '4', '4', '4', '4', '5', '5', '5', '5', '6', '6', '6', '6', '7', '7', '7', '7',
   '8', '8', '8', '8', '9', '9', '9', '9', '+', '+', '+', '+', '-', '-', '-', '-']

def etabHigh24Table : List Char :=
  ['A', 'Q', 'g', 'w', 'A', 'Q', 'g', 'w', 'A', 'Q', 'g', 'w', 'A', 'Q', 'g', 'w',
   'B', 'R', 'h', 'x', 'B', 'R', 'h', 'x', 'B', 'R', 'h', 'x', 'B', 'R', 'h', 'x',
   'C', 'S', 'i', 'y', 'C', 'S', 'i', 'y', 'C', 'S', 'i', 'y', 'C', 'S', 'i', 'y',
   'D', 'T', 'j', 'z', 'D', 'T', 'j', 'z', 'D', 'T', 'j', 'z', 'D', 'T', 'j', 'z',
   'E', 'U', 'k', '0', 'E', 'U', 'k', '0', 'E', 'U', 'k', '0', 'E', 'U', 'k', '0',
   'F', 'V', 'l', '1', 'F', 'V', 'l', '1', 'F', 'V', 'l', '1', 'F', 'V', 'l', '1',
   'G', 'W', 'm', '2', 'G', 'W', 'm', '2', 'G', 'W', 'm', '2', 'G', 'W', 'm', '2',
   'H', 'X', 'n', '3', 'H', 'X', 'n', '3', 'H', 'X', 'n', '3', 'H', 'X', 'n', '3',
   'I', 'Y', 'o', '4', 'I', 'Y', 'o', '4', 'I', 'Y', 'o', '4', 'I', 'Y', 'o', '4',
   'J', 'Z', 'p', '5', 'J', 'Z', 'p', '5', 'J', 'Z', 'p', '5', 'J', 'Z', 'p', '5',
   'K', 'a', 'q', '6', 'K', 'a', 'q', '6', 'K', 'a', 'q', '6', 'K', 'a', 'q', '6',
   'L', 'b', 'r', '7', 'L', 'b', 'r', '7', 'L', 'b', 'r', '7', 'L', 'b', 'r', '7',
   'M', 'c', 's', '8', 'M', 'c', 's', '8', 'M', 'c', 's', '8', 'M', 'c', 's', '8',
   'N', 'd', 't', '9', 'N', 'd', 't', '9', 'N', 'd', 't', '9', 'N', 'd', 't', '9',
   'O', 'e', 'u', '+', 'O', 'e', 'u', '+', 'O', 'e', 'u', '+', 'O', 'e', 'u', '+',
   'P', 'f', 'v', '-', 'P', 'f', 'v', '-', 'P', 'f', 'v', '-', 'P', 'f', 'v', '-']

def etabLow42Table : List Char :=
  ['A', 'E', 'I', 'M', 'Q', 'U', 'Y', 'c', 'g', 'k', 'o', 's', 'w', '0', '4', '8',
   'A', 'E', 'I', 'M', 'Q', 'U', 'Y', 'c', 'g', 'k', 'o', 's', 'w', '0', '4', '8',
   'A', 'E', 'I', 'M', 'Q', 'U', 'Y', 'c', 'g', 'k', 'o', 's', 'w', '0', '4', '8',
   'A', 'E', 'I', 'M', 'Q', 'U', 'Y', 'c', 'g', 'k', 'o', 's', 'w', '0', '4', '8',
   'B', 'F', 'J', 'N', 'R', 'V', 'Z', 'd', 'h', 'l', 'p', 't', 'x', '1', '5', '9',
   'B', 'F', 'J', 'N', 'R', 'V', 'Z', 'd', 'h', 'l', 'p', 't', 'x', '1', '5', '9',
   'B', 'F', 'J', 'N', 'R', 'V', 'Z', 'd', 'h', 'l', 'p', 't', 'x', '1', '5', '9',
   'B', 'F', 'J', 'N', 'R', 'V', 'Z', 'd', 'h', 'l', 'p', 't', 'x', '1', '5', '9',
   'C', 'G', 'K', 'O', 'S', 'W', 'a', 'e', 'i', 'm', 'q', 'u', 'y', '2', '6', '+',
   'C', 'G', 'K', 'O', 'S', 'W', 'a', 'e', 'i', 'm', 'q', 'u', 'y', '2', '6', '+',
   'C', 'G', 'K', 'O', 'S', 'W', 'a', 'e', 'i', 'm', 'q', 'u', 'y', '2', '6', '+',
   'C', 'G', 'K', 'O', 'S', 'W', 'a', 'e', 'i', 'm', 'q', 'u', 'y', '2', '6', '+',
   'D', 'H', 'L', 'P', 'T', 'X', 'b', 'f', 'j', 'n', 'r', 'v', 'z', '3', '7', '-',
   'D', 'H', 'L', 'P', 'T', 'X', 'b', 'f', 'j', 'n', 'r', 'v', 'z', '3', '7', '-',
   'D', 'H', 'L', 'P', 'T', 'X', 'b', 'f', 'j', 'n', 'r', 'v', 'z', '3', '7', '-',
   'D', 'H', 'L', 'P', 'T', 'X', 'b', 'f', 'j', 'n', 'r', 'v', 'z', '3', '7', '-']

def etabLow6Table : List Char :=
  ['A', 'B', 'C', 'D', 'E', 'F', 'G', 'H', 'I', 'J', 'K', 'L', 'M', 'N', 'O', 'P',
   'Q', 'R', 'S', 'T', 'U', 'V', 'W', 'X', 'Y', 'Z', 'a', 'b', 'c', 'd', 'e', 'f',
   'g', 'h', 'i', 'j', 'k', 'l', 'm', 'n', 'o', 'p', 'q', 'r', 's', 't', 'u', 'v',
   'w', 'x', 'y', 'z', '0', '1', '2', '3', '4', '5', '6', '7', '8', '9', '+', '-',
   'A', 'B', 'C', 'D', 'E', 'F', 'G', 'H', 'I', 'J', 'K', 'L', 'M', 'N', 'O', 'P',
   'Q', 'R', 'S', 'T', 'U', 'V', 'W', 'X', 'Y', 'Z', 'a', 'b', 'c', 'd', 'e', 'f',
   'g', 'h', 'i', 'j', 'k', 'l', 'm', 'n', 'o', 'p', 'q', 'r', 's', 't', 'u', 'v',
   'w', 'x', 'y', 'z', '0', '1', '2', '3', '4', '5', '6', '7', '8', '9', '+', '-',
   'A', 'B', 'C', 'D', 'E', 'F', 'G', 'H', 'I', 'J', 'K', 'L', 'M', 'N', 'O', 'P',
   'Q', 'R', 'S', 'T', 'U', 'V', 'W', 'X', 'Y', 'Z', 'a', 'b', 'c', 'd', 'e', 'f',
   'g', 'h', 'i', 'j', 'k', 'l', 'm', 'n', 'o', 'p', 'q', 'r', 's', 't', 'u', 'v',
   'w', 'x', 'y', 'z', '0', '1', '2', '3', '4', '5', '6', '7', '8', '9', '+', '-',
   'A', 'B', 'C', 'D', 'E', 'F', 'G', 'H', 'I', 'J', 'K', 'L', 'M', 'N', 'O', 'P',
   'Q', 'R', 'S', 'T', 'U', 'V', 'W', 'X', 'Y', 'Z', 'a', 'b', 'c', 'd', 'e', 'f',
   'g', 'h', 'i', 'j', 'k', 'l', 'm', 'n', 'o', 'p', 'q', 'r', 's', 't', 'u', 'v',
   'w', 'x', 'y', 'z', '0', '1', '2', '3', '4', '5', '6', '7', '8', '9', '+', '-']

def dtabHigh6 : List UInt8 :=
  [0x00, 0x00, 0x00, 0x00, 0x00, 0x00, 0x00, 0x00, 0x00, 0x00, 0x00, 0x00, 0x00, 0x00, 0x00, 0x00,
   0x00, 0x00, 0x00, 0x00, 0x00, 0x00, 0x00, 0x00, 0x00, 0x00, 0x00, 0x00, 0x00, 0x00, 0x00, 0x00,
   0x00, 0x00, 0x00, 0x00, 0x00, 0x00, 0x00, 0x00, 0x00, 0x00, 0x00, 0xf8, 0x00, 0xfc, 0x00, 0xfc,
   0xd0, 0xd4, 0xd8, 0xdc, 0xe0, 0xe4, 0xe8, 0xec, 0xf0, 0xf4, 0x00, 0x00, 0x00, 0x00, 0x00, 0x00,
   0x00, 0x00, 0x04, 0x08, 0x0c, 0x10, 0x14, 0x18, 0x1c, 0x20, 0x24, 0x28, 0x2c, 0x30, 0x34, 0x38,
   0x3c, 0x40, 0x44, 0x48, 0x4c, 0x50, 0x54, 0x58, 0x5c, 0x60, 0x64, 0x00, 0x00, 0x00, 0x00, 0x00,
   0x00, 0x68, 0x6c, 0x70, 0x74, 0x78, 0x7c, 0x80, 0x84, 0x88, 0x8c, 0x90, 0x94, 0x98, 0x9c, 0xa0,
   0xa4, 0xa8, 0xac, 0xb0, 0xb4, 0xb8, 0xbc, 0xc0, 0xc4, 0xc8, 0xcc, 0x00, 0x00, 0x00, 0x00, 0x00,
   0x00, 0x00, 0x00, 0x00, 0x00, 0x00, 0x00, 0x00, 0x00, 0x00, 0x00, 0x00, 0x00, 0x00, 0x00, 0x00,
   0x00, 0x00, 0x00, 0x00, 0x00, 0x00, 0x00, 0x00, 0x00, 0x00, 0x00, 0x00, 0x00, 0x00, 0x00, 0x00,
   0x00, 0x00, 0x00, 0x00, 0x00, 0x00, 0x00, 0x00, 0x00, 0x00, 0x00, 0x00, 0x00, 0x00, 0x00, 0x00,
   0x00, 0x00, 0x00, 0x00, 0x00, 0x00, 0x00, 0x00, 0x00, 0x00, 0x00, 0x00, 0x00, 0x00, 0x00, 0x00,
   0x00, 0x00, 0x00, 0x00, 0x00, 0x00, 0x00, 0x00, 0x00, 0x00, 0x00, 0x00, 0x00, 0x00, 0x00, 0x00,
   0x00, 0x00, 0x00, 0x00, 0x00, 0x00, 0x00, 0x00, 0x00, 0x00, 0x00, 0x00, 0x00, 0x00, 0x00, 0x00,
   0x00, 0x00, 0x00, 0x00, 0x00, 0x00, 0x00, 0x00, 0x00, 0x00, 0x00, 0x00, 0x00, 0x00, 0x00, 0x00,
   0x00, 0x00, 0x00, 0x00, 0x00, 0x00, 0x00, 0x00, 0x00, 0x00, 0x00, 0x00, 0x00, 0x00, 0x00, 0x00]

def dtabHigh2 : List UInt8 :=
  [0x00, 0x00, 0x00, 0x00, 0x00, 0x00, 0x00, 0x00, 0x00, 0x00, 0x00, 0x00, 0x00, 0x00, 0x00, 0x00,
   0x00, 0x00, 0x00, 0x00, 0x00, 0x00, 0x00, 0x00, 0x00, 0x00, 0x00, 0x00, 0x00, 0x00, 0x00, 0x00,
   0x00, 0x00, 0x00, 0x00, 0x00, 0x00, 0x00, 0x00, 0x00, 0x00, 0x00, 0x03, 0x00, 0x03, 0x00, 0x03,
   0x03, 0x03, 0x03, 0x03, 0x03, 0x03, 0x03, 0x03, 0x03, 0x03, 0x00, 0x00, 0x00, 0x00, 0x00, 0x00,
   0x00, 0x00, 0x00, 0x00, 0x00, 0x00, 0x00, 0x00, 0x00, 0x00, 0x00, 0x00, 0x00, 0x00, 0x00, 0x00,
   0x00, 0x01, 0x01, 0x01, 0x01, 0x01, 0x01, 0x01, 0x01, 0x01, 0x01, 0x00, 0x00, 0x00, 0x00, 0x00,
   0x00, 0x01, 0x01, 0x01, 0x01, 0x01, 0x01, 0x02, 0x02, 0x02, 0x02, 0x02, 0x02, 0x02, 0x02, 0x02,
   0x02, 0x02, 0x02, 0x02, 0x02, 0x02, 0x02, 0x03, 0x03, 0x03, 0x03, 0x00, 0x00, 0x00, 0x00, 0x00,
   0x00, 0x00, 0x00, 0x00, 0x00, 0x00, 0x00, 0x00, 0x00, 0x00, 0x00, 0x00, 0x00, 0x00, 0x00, 0x00,
   0x00, 0x00, 0x00, 0x00, 0x00, 0x00, 0x00, 0x00, 0x00, 0x00, 0x00, 0x00, 0x00, 0x00, 0x00, 0x00,
   0x00, 0x00, 0x00, 0x00, 0x00, 0x00, 0x00, 0x00, 0x00, 0x00, 0x00, 0x00, 0x00, 0x00, 0x00, 0x00,
   0x00, 0x00, 0x00, 0x00, 0x00, 0x00, 0x00, 0x00, 0x00, 0x00, 0x00, 0x00, 0x00, 0x00, 0x00, 0x00,
   0x00, 0x00, 0x00, 0x00, 0x00, 0x00, 0x00, 0x00, 0x00, 0x00, 0x00, 0x00, 0x00, 0x00, 0x00, 0x00,
   0x00, 0x00, 0x00, 0x00, 0x00, 0x00, 0x00, 0x00, 0x00, 0x00, 0x00, 0x00, 0x00, 0x00, 0x00, 0x00,
   0x00, 0x00, 0x00, 0x00, 0x00, 0x00, 0x00, 0x00, 0x00, 0x00, 0x00, 0x00, 0x00, 0x00, 0x00, 0x00,
   0x00, 0x00, 0x00, 0x00, 0x00, 0x00, 0x00, 0x00, 0x00, 0x00, 0x00, 0x00, 0x00, 0x00, 0x00, 0x00]

def dtabHigh4 : List UInt8 :=
  [0x00, 0x00, 0x00, 0x00, 0x00, 0x00, 0x00, 0x00, 0x00, 0x00, 0x00, 0x00, 0x00, 0x00, 0x00, 0x00,
   0x00, 0x00, 0x00, 0x00, 0x00, 0x00, 0x00, 0x00, 0x00, 0x00, 0x00, 0x00, 0x00, 0x00, 0x00, 0x00,
   0x00, 0x00, 0x00, 0x00, 0x00, 0x00, 0x00, 0x00, 0x00, 0x00, 0x00, 0xe0, 0x00, 0xf0, 0x00, 0xf0,
   0x40, 0x50, 0x60, 0x70, 0x80, 0x90, 0xa0, 0xb0, 0xc0, 0xd0, 0x00, 0x00, 0x00, 0x00, 0x00, 0x00,
   0x00, 0x00, 0x10, 0x20, 0x30, 0x40, 0x50, 0x60, 0x70, 0x80, 0x90, 0xa0, 0xb0, 0xc0, 0xd0, 0xe0,
   0xf0, 0x00, 0x10, 0x20, 0x30, 0x40, 0x50, 0x60, 0x70, 0x80, 0x90, 0x00, 0x00, 0x00, 0x00, 0x00,
   0x00, 0xa0, 0xb0, 0xc0, 0xd0, 0xe0, 0xf0, 0x00, 0x10, 0x20, 0x30, 0x40, 0x50, 0x60, 0x70, 0x80,
   0x90, 0xa0, 0xb0, 0xc0, 0xd0, 0xe0, 0xf0, 0x00, 0x10, 0x20, 0x30, 0x00, 0x00, 0x00, 0x00, 0x00,
   0x00, 0x00, 0x00, 0x00, 0x00, 0x00, 0x00, 0x00, 0x00, 0x00, 0x00, 0x00, 0x00, 0x00, 0x00, 0x00,
   0x00, 0x00, 0x00, 0x00, 0x00, 0x00, 0x00, 0x00, 0x00, 0x00, 0x00, 0x00, 0x00, 0x00, 0x00, 0x00,
   0x00, 0x00, 0x00, 0x00, 0x00, 0x00, 0x00, 0x00, 0x00, 0x00, 0x00, 0x00, 0x00, 0x00, 0x00, 0x00,
   0x00, 0x00, 0x00, 0x00, 0x00, 0x00, 0x00, 0x00, 0x00, 0x00, 0x00, 0x00, 0x00, 0x00, 0x00, 0x00,
   0x00, 0x00, 0x00, 0x00, 0x00, 0x00, 0x00, 0x00, 0x00, 0x00, 0x00, 0x00, 0x00, 0x00, 0x00, 0x00,
   0x00, 0x00, 0x00, 0x00, 0x00, 0x00, 0x00, 0x00, 0x00, 0x00, 0x00, 0x00, 0x00, 0x00, 0x00, 0x00,
   0x00, 0x00, 0x00, 0x00, 0x00, 0x00, 0x00, 0x00, 0x00, 0x00, 0x00, 0x00, 0x00, 0x00, 0x00, 0x00,
   0x00, 0x00, 0x00, 0x00, 0x00, 0x00, 0x00, 0x00, 0x00, 0x00, 0x00, 0x00, 0x00, 0x00, 0x00, 0x00]

def dtabLow4 : List UInt8 :=
  [0x00, 0x00, 0x00, 0x00, 0x00, 0x00, 0x00, 0x00, 0x00, 0x00, 0x00, 0x00, 0x00, 0x00, 0x00, 0x00,
   0x00, 0x00, 0x00, 0x00, 0x00, 0x00, 0x00, 0x00, 0x00, 0x00, 0x00, 0x00, 0x00, 0x00, 0x00, 0x00,
   0x00, 0x00, 0x00, 0x00, 0x00, 0x00, 0x00, 0x00, 0x00, 0x00, 0x00, 0x0f, 0x00, 0x0f, 0x00, 0x0f,
   0x0d, 0x0d, 0x0d, 0x0d, 0x0e, 0x0e, 0x0e, 0x0e, 0x0f, 0x0f, 0x00, 0x00, 0x00, 0x00, 0x00, 0x00,
   0x00, 0x00, 0x00, 0x00, 0x00, 0x01, 0x01, 0x01, 0x01, 0x02, 0x02, 0x02, 0x02, 0x03, 0x03, 0x03,
   0x03, 0x04, 0x04, 0x04, 0x04, 0x05, 0x05, 0x05, 0x05, 0x06, 0x06, 0x00, 0x00, 0x00, 0x00, 0x00,
   0x00, 0x06, 0x06, 0x07, 0x07, 0x07, 0x07, 0x08, 0x08, 0x08, 0x08, 0x09, 0x09, 0x09, 0x09, 0x0a,
   0x0a, 0x0a, 0x0a, 0x0b, 0x0b, 0x0b, 0x0b, 0x0c, 0x0c, 0x0c, 0x0c, 0x00, 0x00, 0x00, 0x00, 0x00,
   0x00, 0x00, 0x00, 0x00, 0x00, 0x00, 0x00, 0x00, 0x00, 0x00, 0x00, 0x00, 0x00, 0x00, 0x00, 0x00,
   0x00, 0x00, 0x00, 0x00, 0x00, 0x00, 0x00, 0x00, 0x00, 0x00, 0x00, 0x00, 0x00, 0x00, 0x00, 0x00,
   0x00, 0x00, 0x00, 0x00, 0x00, 0x00, 0x00, 0x00, 0x00, 0x00, 0x00, 0x00, 0x00, 0x00, 0x00, 0x00,
   0x00, 0x00, 0x00, 0x00, 0x00, 0x00, 0x00, 0x00, 0x00, 0x00, 0x00, 0x00, 0x00, 0x00, 0x00, 0x00,
   0x00, 0x00, 0x00, 0x00, 0x00, 0x00, 0x00, 0x00, 0x00, 0x00, 0x00, 0x00, 0x00, 0x00, 0x00, 0x00,
   0x00, 0x00, 0x00, 0x00, 0x00, 0x00, 0x00, 0x00, 0x00, 0x00, 0x00, 0x00, 0x00, 0x00, 0x00, 0x00,
   0x00, 0x00, 0x00, 0x00, 0x00, 0x00, 0x00, 0x00, 0x00, 0x00, 0x00, 0x00, 0x00, 0x00, 0x00, 0x00,
   0x00, 0x00, 0x00, 0x00, 0x00, 0x00, 0x00, 0x00, 0x00, 0x00, 0x00, 0x00, 0x00, 0x00, 0x00, 0x00]

def dtabLow2 : List UInt8 :=
  [0x00, 0x00, 0x00, 0x00, 0x00, 0x00, 0x00, 0x00, 0x00, 0x00, 0x00, 0x00, 0x00, 0x00, 0x00, 0x00,
   0x00, 0x00, 0x00, 0x00, 0x00, 0x00, 0x00, 0x00, 0x00, 0x00, 0x00, 0x00, 0x00, 0x00, 0x00, 0x00,
   0x00, 0x00, 0x00, 0x00, 0x00, 0x00, 0x00, 0x00, 0x00, 0x00, 0x00, 0x80, 0x00, 0xc0, 0x00, 0xc0,
   0x00, 0x40, 0x80, 0xc0, 0x00, 0x40, 0x80, 0xc0, 0x00, 0x40, 0x00, 0x00, 0x00, 0x00, 0x00, 0x00,
   0x00, 0x00, 0x40, 0x80, 0xc0, 0x00, 0x40, 0x80, 0xc0, 0x00, 0x40, 0x80, 0xc0, 0x00, 0x40, 0x80,
   0xc0, 0x00, 0x40, 0x80, 0xc0, 0x00, 0x40, 0x80, 0xc0, 0x00, 0x40, 0x00, 0x00, 0x00, 0x00, 0x00,
   0x00, 0x80, 0xc0, 0x00, 0x40, 0x80, 0xc0, 0x00, 0x40, 0x80, 0xc0, 0x00, 0x40, 0x80, 0xc0, 0x00,
   0x40, 0x80, 0xc0, 0x00, 0x40, 0x80, 0xc0, 0x00, 0x40, 0x80, 0xc0, 0x00, 0x00, 0x00, 0x00, 0x00,
   0x00, 0x00, 0x00, 0x00, 0x00, 0x00, 0x00, 0x00, 0x00, 0x00, 0x00, 0x00, 0x00, 0x00, 0x00, 0x00,
   0x00, 0x00, 0x00, 0x00, 0x00, 0x00, 0x00, 0x00, 0x00, 0x00, 0x00, 0x00, 0x00, 0x00, 0x00, 0x00,
   0x00, 0x00, 0x00, 0x00, 0x00, 0x00, 0x00, 0x00, 0x00, 0x00, 0x00, 0x00, 0x00, 0x00, 0x00, 0x00,
   0x00, 0x00, 0x00, 0x00, 0x00, 0x00, 0x00, 0x00, 0x00, 0x00, 0x00, 0x00, 0x00, 0x00, 0x00, 0x00,
   0x00, 0x00, 0x00, 0x00, 0x00, 0x00, 0x00, 0x00, 0x00, 0x00, 0x00, 0x00, 0x00, 0x00, 0x00, 0x00,
   0x00, 0x00, 0x00, 0x00, 0x00, 0x00, 0x00, 0x00, 0x00, 0x00, 0x00, 0x00, 0x00, 0x00, 0x00, 0x00,
   0x00, 0x00, 0x00, 0x00, 0x00, 0x00, 0x00, 0x00, 0x00, 0x00, 0x00, 0x00, 0x00, 0x00, 0x00, 0x00,
   0x00, 0x00, 0x00, 0x00, 0x00, 0x00, 0x00, 0x00, 0x00, 0x00, 0x00, 0x00, 0x00, 0x00, 0x00, 0x00]

def dtabLow6 : List UInt8 :=
  [0x00, 0x00, 0x00, 0x00, 0x00, 0x00, 0x00, 0x00, 0x00, 0x00, 0x00, 0x00, 0x00, 0x00, 0x00, 0x00,
   0x00, 0x00, 0x00, 0x00, 0x00, 0x00, 0x00, 0x00, 0x00, 0x00, 0x00, 0x00, 0x00, 0x00, 0x00, 0x00,
   0x00, 0x00, 0x00, 0x00, 0x00, 0x00, 0x00, 0x00, 0x00, 0x00, 0x00, 0x3e, 0x00, 0x3f, 0x00, 0x3f,
   0x34, 0x35, 0x36, 0x37, 0x38, 0x39, 0x3a, 0x3b, 0x3c, 0x3d, 0x00, 0x00, 0x00, 0x00, 0x00, 0x00,
   0x00, 0x00, 0x01, 0x02, 0x03, 0x04, 0x05, 0x06, 0x07, 0x08, 0x09, 0x0a, 0x0b, 0x0c, 0x0d, 0x0e,
   0x0f, 0x10, 0x11, 0x12, 0x13, 0x14, 0x15, 0x16, 0x17, 0x18, 0x19, 0x00, 0x00, 0x00, 0x00, 0x00,
   0x00, 0x1a, 0x1b, 0x1c, 0x1d, 0x1e, 0x1f, 0x20, 0x21, 0x22, 0x23, 0x24, 0x25, 0x26, 0x27, 0x28,
   0x29, 0x2a, 0x2b, 0x2c, 0x2d, 0x2e, 0x2f, 0x30, 0x31, 0x32, 0x33, 0x00, 0x00, 0x00, 0x00, 0x00,
   0x00, 0x00, 0x00, 0x00, 0x00, 0x00, 0x00, 0x00, 0x00, 0x00, 0x00, 0x00, 0x00, 0x00, 0x00, 0x00,
   0x00, 0x00, 0x00, 0x00, 0x00, 0x00, 0x00, 0x00, 0x00, 0x00, 0x00, 0x00, 0x00, 0x00, 0x00, 0x00,
   0x00, 0x00, 0x00, 0x00, 0x00, 0x00, 0x00, 0x00, 0x00, 0x00, 0x00, 0x00, 0x00, 0x00, 0x00, 0x00,
   0x00, 0x00, 0x00, 0x00, 0x00, 0x00, 0x00, 0x00, 0x00, 0x00, 0x00, 0x00, 0x00, 0x00, 0x00, 0x00,
   0x00, 0x00, 0x00, 0x00, 0x00, 0x00, 0x00, 0x00, 0x00, 0x00, 0x00, 0x00, 0x00, 0x00, 0x00, 0x00,
   0x00, 0x00, 0x00, 0x00, 0x00, 0x00, 0x00, 0x00, 0x00, 0x00, 0x00, 0x00, 0x00, 0x00, 0x00, 0x00,
   0x00, 0x00, 0x00, 0x00, 0x00, 0x00, 0x00, 0x00, 0x00, 0x00, 0x00, 0x00, 0x00, 0x00, 0x00, 0x00,
   0x00, 0x00, 0x00, 0x00, 0x00, 0x00, 0x00, 0x00, 0x00, 0x00, 0x00, 0x00, 0x00, 0x00, 0x00, 0x00]

/-! ## The codec -/

def szFbase64E (x : Nat) : Nat := (x + 2) / 3 * 4 + 1

def etab (t : List Char) (i : UInt8) : Char := t.getD i.toNat nul

/-- A `char` is signed, so from 128 on the lookup is before the table. -/
def dtab (t : List UInt8) (c : Char) : Option UInt8 := if c.toNat < 128 then t[c.toNat]? else none

/-- The stores of `fbase64_e` from `d` and `e` on with `i` groups of three to
go, unless it reads past the end of `d`. -/
def fbase64EFrom (dlen : Nat) : Nat → List UInt8 → Nat → Option (List (Nat × Char))
  | i + 1, d, e => do
    let d0 ← d[0]?
    let d1 ← d[1]?
    let d2 ← d[2]?
    let es ← fbase64EFrom dlen i (d.drop 3) (e + 4)
    return (e, etab etabHigh6Table d0)
      :: (e + 1, etab etabHigh24Table ((d0 &&& 0x03) ||| (d1 &&& 0xF0)))
      :: (e + 2, etab etabLow42Table ((d1 &&& 0x0F) ||| (d2 &&& 0xC0)))
      :: (e + 3, etab etabLow6Table d2)
      :: es
  | 0, d, e =>
    match dlen % 3 with
    | 2 => do
      let d0 ← d[0]?
      let d1 ← d[1]?
      return [(e, etab etabHigh6Table d0),
        (e + 1, etab etabHigh24Table ((d0 &&& 0x03) ||| (d1 &&& 0xF0))),
        (e + 2, etab etabLow42Table (d1 &&& 0x0F)),
        (e + 3, '='),
        (e + 4, nul)]
    | 1 => do
      let d0 ← d[0]?
      return [(e, etab etabHigh6Table d0),
        (e + 1, etab etabHigh24Table (d0 &&& 0x03)),
        (e + 2, '='),
        (e + 3, '='),
        (e + 4, nul)]
    | _ => some [(e, nul)]

def fbase64E (d : List UInt8) (dlen : Nat) : Option (List (Nat × Char)) := fbase64EFrom dlen (dlen / 3) d 0

def fbase64DFrom : Nat → Str → Nat → Option (List (Nat × UInt8))
  | 0, _, _ => some []
  | i + 1, e, d => do
    let e0 := e.getD 0 nul
    let e1 := e.getD 1 nul
    let e2 := e.getD 2 nul
    let e3 := e.getD 3 nul
    let d0 := (← dtab dtabHigh6 e0) ||| (← dtab dtabHigh2 e1)
    let d1 := (← dtab dtabHigh4 e1) ||| (← dtab dtabLow4 e2)
    let d2 := (← dtab dtabLow2 e2) ||| (← dtab dtabLow6 e3)
    let ds ← fbase64DFrom i (e.drop 4) (d + 3)
    return (d, d0) :: (d + 1, d1) :: (d + 2, d2) :: ds

/-- The stores of `fbase64_d`, unless it looks a character up outside a table. -/
def fbase64D (e : Str) (elen : Nat) : Option (List (Nat × UInt8)) := fbase64DFrom (elen / 4) e 0

/-! ## What the tables hold -/

/-- The alphabet, character by character. -/
def alphabet : List Char :=
  ['A', 'B', 'C', 'D', 'E', 'F', 'G', 'H', 'I', 'J', 'K', 'L', 'M', 'N', 'O', 'P',
   'Q', 'R', 'S', 'T', 'U', 'V', 'W', 'X', 'Y', 'Z', 'a', 'b', 'c', 'd', 'e', 'f',
   'g', 'h', 'i', 'j', 'k', 'l', 'm', 'n', 'o', 'p', 'q', 'r', 's', 't', 'u', 'v',
   'w', 'x', 'y', 'z', '0', '1', '2', '3', '4', '5', '6', '7', '8', '9', '+', '-']

def at64 (k : Nat) : Char := alphabet.getD k nul

theorem fbase64Alphabet_eq : fbase64Alphabet = alphabet := by decide +kernel

theorem al64_eq {n : Nat} (h : n < 64) : al64 n = at64 n := by
  simp only [al64, List.get_eq_getElem, fbase64Alphabet_eq, Nat.mod_eq_of_lt h]
  exact (List.getElem_eq_getD nul)

theorem etab_tables :
    etabHigh6Table = ((List.range 256).map fun i => at64 (i / 4)) ∧
    etabHigh24Table = ((List.range 256).map fun i => at64 (i % 4 * 16 + i / 16)) ∧
    etabLow42Table = ((List.range 256).map fun i => at64 (i % 16 * 4 + i / 64)) ∧
    etabLow6Table = ((List.range 256).map fun i => at64 (i % 64)) := by
  decide +kernel

theorem etab_map (f : Nat → Char) (i : UInt8) : etab ((List.range 256).map f) i = f i.toNat := by
  have hi : i.toNat < 256 := i.toNat_lt
  simp [etab, List.getD_eq_getElem?_getD, hi]

theorem dtab_tables : ∀ k < 64,
    dtab dtabHigh6 (at64 k) = some (UInt8.ofNat (k * 4)) ∧
    dtab dtabHigh2 (at64 k) = some (UInt8.ofNat (k / 16)) ∧
    dtab dtabHigh4 (at64 k) = some (UInt8.ofNat (k % 16 * 16)) ∧
    dtab dtabLow4 (at64 k) = some (UInt8.ofNat (k / 4)) ∧
    dtab dtabLow2 (at64 k) = some (UInt8.ofNat (k % 4 * 64)) ∧
    dtab dtabLow6 (at64 k) = some (UInt8.ofNat k) := by
  decide +kernel

/-- Two fields of a byte that do not meet. -/
theorem or_fields (m k : Nat) (hm : m = 2 ^ k) {a b : Nat} (hb : b < m) (h : m * a + b < 256) :
    UInt8.ofNat (m * a) ||| UInt8.ofNat b = UInt8.ofNat (m * a + b) := by
  have ha : m * a < 256 := by omega
  have hb' : b < 256 := by omega
  apply UInt8.toNat.inj
  rw [UInt8.toNat_or, UInt8.toNat_ofNat_of_lt' ha, UInt8.toNat_ofNat_of_lt' hb', UInt8.toNat_ofNat_of_lt' h]
  subst hm
  rw [Nat.two_pow_add_eq_or_of_lt hb]

theorem masks (a : UInt8) :
    a &&& 0x03 = UInt8.ofNat (a.toNat % 4) ∧ a &&& 0x0F = UInt8.ofNat (a.toNat % 16) ∧
    a &&& 0xF0 = UInt8.ofNat (16 * (a.toNat / 16)) ∧ a &&& 0xC0 = UInt8.ofNat (64 * (a.toNat / 64)) := by
  have h : ∀ k < 256,
      UInt8.ofNat k &&& 0x03 = UInt8.ofNat (k % 4) ∧ UInt8.ofNat k &&& 0x0F = UInt8.ofNat (k % 16) ∧
      UInt8.ofNat k &&& 0xF0 = UInt8.ofNat (16 * (k / 16)) ∧ UInt8.ofNat k &&& 0xC0 = UInt8.ofNat (64 * (k / 64)) := by
    decide +kernel
  have ha := h a.toNat a.toNat_lt
  rwa [UInt8.ofNat_toNat] at ha

theorem etabHigh6_table (a : UInt8) : etab etabHigh6Table a = etabHigh6 a := by
  have ha := a.toNat_lt
  rw [etab_tables.1, etab_map, etabHigh6, al64_eq (by omega)]

theorem etabHigh24_table (a b : UInt8) : etab etabHigh24Table ((a &&& 0x03) ||| (b &&& 0xF0)) = etabHigh24 a b := by
  have ha := a.toNat_lt
  have hb := b.toNat_lt
  have hi : 16 * (b.toNat / 16) + a.toNat % 4 < 256 := by omega
  rw [(masks a).1, (masks b).2.2.1, UInt8.or_comm, or_fields 16 4 rfl (by omega) hi, etab_tables.2.1, etab_map,
    UInt8.toNat_ofNat_of_lt' hi, etabHigh24, al64_eq (by omega)]
  congr 1
  omega

theorem etabLow42_table (b c : UInt8) : etab etabLow42Table ((b &&& 0x0F) ||| (c &&& 0xC0)) = etabLow42 b c := by
  have hb := b.toNat_lt
  have hc := c.toNat_lt
  have hi : 64 * (c.toNat / 64) + b.toNat % 16 < 256 := by omega
  rw [(masks b).2.1, (masks c).2.2.2, UInt8.or_comm, or_fields 64 6 rfl (by omega) hi, etab_tables.2.2.1, etab_map,
    UInt8.toNat_ofNat_of_lt' hi, etabLow42, al64_eq (by omega)]
  congr 1
  omega

theorem etabLow6_table (c : UInt8) : etab etabLow6Table c = etabLow6 c := by
  rw [etab_tables.2.2.2, etab_map, etabLow6, al64_eq (by omega)]

/-! ## Encoding -/

/-- The last groups mask a byte that is not there. -/
theorem etab_last (a : UInt8) :
    etab etabHigh24Table (a &&& 0x03) = etabHigh24 a 0 ∧ etab etabLow42Table (a &&& 0x0F) = etabLow42 a 0 := by
  have h24 := etabHigh24_table a 0
  have h42 := etabLow42_table a 0
  simp only [UInt8.zero_and, UInt8.or_zero] at h24 h42
  exact ⟨h24, h42⟩

theorem fbase64EFrom_eq (d : List UInt8) (n e : Nat) (h : n % 3 = d.length % 3) :
    fbase64EFrom n (d.length / 3) d e = some (storesFrom e (fbase64e d ++ [nul])) := by
  induction d using fbase64e.induct generalizing e with
  | case1 a b c d ih =>
    have hi : (a :: b :: c :: d).length / 3 = d.length / 3 + 1 := by simp only [List.length_cons]; omega
    have hd := ih (e + 4) (by simp only [List.length_cons] at h; omega)
    simp only [hi, fbase64EFrom, List.getElem?_cons_zero, List.getElem?_cons_succ, List.drop_succ_cons, List.drop_zero,
      Option.bind_eq_bind, Option.bind_some, hd, Option.pure_def, etabHigh6_table, etabHigh24_table, etabLow42_table,
      etabLow6_table, fbase64e, List.cons_append, storesFrom_cons, Nat.add_assoc, Nat.reduceAdd]
  | case2 a b =>
    have hn : n % 3 = 2 := h
    simp only [List.length_cons, List.length_nil, fbase64EFrom, hn, List.getElem?_cons_zero, List.getElem?_cons_succ,
      Option.bind_eq_bind, Option.bind_some, Option.pure_def, etabHigh6_table, etabHigh24_table, (etab_last b).2, fbase64e,
      List.cons_append, List.nil_append, storesFrom_cons, storesFrom_nil, Nat.add_assoc, Nat.reduceAdd, Nat.reduceDiv]
  | case3 a =>
    have hn : n % 3 = 1 := h
    simp only [List.length_cons, List.length_nil, fbase64EFrom, hn, List.getElem?_cons_zero, Option.bind_eq_bind,
      Option.bind_some, Option.pure_def, etabHigh6_table, (etab_last a).1, fbase64e, List.cons_append, List.nil_append,
      storesFrom_cons, storesFrom_nil, Nat.add_assoc, Nat.reduceAdd, Nat.reduceDiv]
  | case4 =>
    have hn : n % 3 = 0 := h
    simp only [List.length_nil, fbase64EFrom, hn, fbase64e, List.nil_append, storesFrom_cons, storesFrom_nil, Nat.reduceDiv]

theorem fbase64E_eq (d : List UInt8) : fbase64E d d.length = some (storesFrom 0 (fbase64e d ++ [nul])) :=
  fbase64EFrom_eq d d.length 0 rfl

theorem fbase64e_size (d : List UInt8) : (fbase64e d).length + 1 = szFbase64E d.length := by
  induction d using fbase64e.induct with
  | case1 a b c d ih =>
    simp only [fbase64e, List.length_cons, szFbase64E] at ih ⊢
    omega
  | case2 => simp [fbase64e, szFbase64E]
  | case3 => simp [fbase64e, szFbase64E]
  | case4 => simp [fbase64e, szFbase64E]

/-- How many bytes the last group of three lacks. -/
def padding (n : Nat) : Nat := (3 - n % 3) % 3

theorem fbase64e_body (d : List UInt8) :
    ∃ s, fbase64e d = s ++ List.replicate (padding d.length) '=' ∧ ∀ c ∈ s, c ∈ fbase64Alphabet := by
  induction d using fbase64e.induct with
  | case1 a b c d ih =>
    obtain ⟨s, hs, hm⟩ := ih
    have hp : padding (d.length + 1 + 1 + 1) = padding d.length := by simp only [padding]; omega
    refine ⟨etabHigh6 a :: etabHigh24 a b :: etabLow42 b c :: etabLow6 c :: s, ?_, ?_⟩
    · simp only [fbase64e, hs, List.length_cons, hp, List.cons_append]
    · simp only [List.mem_cons]
      rintro x (rfl | rfl | rfl | rfl | hx)
      iterate 4 exact al64_mem _
      exact hm x hx
  | case2 a b =>
    exact ⟨[etabHigh6 a, etabHigh24 a b, etabLow42 b 0], rfl, by simp [etabHigh6, etabHigh24, etabLow42, al64_mem]⟩
  | case3 a => exact ⟨[etabHigh6 a, etabHigh24 a 0], rfl, by simp [etabHigh6, etabHigh24, al64_mem]⟩
  | case4 => exact ⟨[], rfl, by simp⟩

/-! ## Decoding -/

theorem fbase64DFrom_group {w x y z : Char} {p p' q q' r r' : UInt8} (hp : dtab dtabHigh6 w = some p)
    (hp' : dtab dtabHigh2 x = some p') (hq : dtab dtabHigh4 x = some q) (hq' : dtab dtabLow4 y = some q')
    (hr : dtab dtabLow2 y = some r) (hr' : dtab dtabLow6 z = some r') (i : Nat) (e : Str) (d : Nat) :
    fbase64DFrom (i + 1) (w :: x :: y :: z :: e) d = (fbase64DFrom i e (d + 3)).map fun ds =>
      (d, p ||| p') :: (d + 1, q ||| q') :: (d + 2, r ||| r') :: ds := by
  simp only [fbase64DFrom, List.getD_cons_zero, List.getD_cons_succ, List.drop_succ_cons, List.drop_zero, hp, hp', hq, hq',
    hr, hr', Option.bind_eq_bind, Option.bind_some, Option.pure_def]
  cases fbase64DFrom i e (d + 3) <;> rfl

theorem high6_high2 (a b : UInt8) :
    UInt8.ofNat (a.toNat / 4 * 4) ||| UInt8.ofNat ((a.toNat % 4 * 16 + b.toNat / 16) / 16) = a := by
  have ha := a.toNat_lt
  have hb := b.toNat_lt
  have h4 : (a.toNat % 4 * 16 + b.toNat / 16) / 16 = a.toNat % 4 := by omega
  have hs : 4 * (a.toNat / 4) + a.toNat % 4 = a.toNat := by omega
  rw [h4, Nat.mul_comm, or_fields 4 2 rfl (by omega) (by omega), hs, UInt8.ofNat_toNat]

theorem high4_low4 (a b c : UInt8) :
    UInt8.ofNat ((a.toNat % 4 * 16 + b.toNat / 16) % 16 * 16) ||| UInt8.ofNat ((b.toNat % 16 * 4 + c.toNat / 64) / 4) = b := by
  have hb := b.toNat_lt
  have hc := c.toNat_lt
  have h4 : (a.toNat % 4 * 16 + b.toNat / 16) % 16 = b.toNat / 16 := by omega
  have h4' : (b.toNat % 16 * 4 + c.toNat / 64) / 4 = b.toNat % 16 := by omega
  have hs : 16 * (b.toNat / 16) + b.toNat % 16 = b.toNat := by omega
  rw [h4, h4', Nat.mul_comm, or_fields 16 4 rfl (by omega) (by omega), hs, UInt8.ofNat_toNat]

theorem low2_low6 (b c : UInt8) :
    UInt8.ofNat ((b.toNat % 16 * 4 + c.toNat / 64) % 4 * 64) ||| UInt8.ofNat (c.toNat % 64) = c := by
  have hc := c.toNat_lt
  have h2 : (b.toNat % 16 * 4 + c.toNat / 64) % 4 = c.toNat / 64 := by omega
  have hs : 64 * (c.toNat / 64) + c.toNat % 64 = c.toNat := by omega
  rw [h2, Nat.mul_comm, or_fields 64 6 rfl (by omega) (by omega), hs, UInt8.ofNat_toNat]

/-- The decoder on the code of three bytes. -/
theorem fbase64DFrom_bytes (a b c : UInt8) (i : Nat) (e : Str) (d : Nat) :
    fbase64DFrom (i + 1) (etabHigh6 a :: etabHigh24 a b :: etabLow42 b c :: etabLow6 c :: e) d =
      (fbase64DFrom i e (d + 3)).map fun ds => (d, a) :: (d + 1, b) :: (d + 2, c) :: ds := by
  have ha := a.toNat_lt
  have hb := b.toNat_lt
  have hc := c.toNat_lt
  rw [etabHigh6, etabHigh24, etabLow42, etabLow6, al64_eq (by omega), al64_eq (by omega), al64_eq (by omega),
    al64_eq (by omega), fbase64DFrom_group (dtab_tables _ (by omega)).1 (dtab_tables _ (by omega)).2.1 (dtab_tables _ (by omega)).2.2.1
      (dtab_tables _ (by omega)).2.2.2.1 (dtab_tables _ (by omega)).2.2.2.2.1 (dtab_tables _ (by omega)).2.2.2.2.2,
    high6_high2, high4_low4, low2_low6]

/-- A padding character is looked up as a byte of zeros would be. -/
theorem dtab_pad : dtab dtabLow4 '=' = some 0 ∧ dtab dtabLow2 '=' = some 0 ∧ dtab dtabLow6 '=' = some 0 := by decide

theorem fbase64D_last2 (a b : UInt8) (d : Nat) :
    fbase64DFrom 1 [etabHigh6 a, etabHigh24 a b, etabLow42 b 0, '='] d = some (storesFrom d [a, b, 0]) := by
  have ha := a.toNat_lt
  have hb := b.toNat_lt
  have h2 := low2_low6 b 0
  have h0 : UInt8.ofNat ((0 : UInt8).toNat % 64) = 0 := rfl
  rw [h0] at h2
  rw [etabHigh6, etabHigh24, etabLow42, al64_eq (by omega), al64_eq (by omega), al64_eq (by simp; omega),
    fbase64DFrom_group (dtab_tables _ (by omega)).1 (dtab_tables _ (by omega)).2.1 (dtab_tables _ (by omega)).2.2.1
      (dtab_tables _ (by simp; omega)).2.2.2.1 (dtab_tables _ (by simp; omega)).2.2.2.2.1 dtab_pad.2.2,
    high6_high2, high4_low4, h2]
  rfl

theorem fbase64D_last1 (a : UInt8) (d : Nat) :
    fbase64DFrom 1 [etabHigh6 a, etabHigh24 a 0, '=', '='] d = some (storesFrom d [a, 0, 0]) := by
  have ha := a.toNat_lt
  have h4 := high4_low4 a 0 0
  have h0 : UInt8.ofNat (((0 : UInt8).toNat % 16 * 4 + (0 : UInt8).toNat / 64) / 4) = 0 := rfl
  rw [h0] at h4
  rw [etabHigh6, etabHigh24, al64_eq (by omega), al64_eq (by simp; omega),
    fbase64DFrom_group (dtab_tables _ (by omega)).1 (dtab_tables _ (by simp; omega)).2.1
      (dtab_tables _ (by simp; omega)).2.2.1 dtab_pad.1 dtab_pad.2.1 dtab_pad.2.2,
    high6_high2, h4]
  rfl

theorem fbase64DFrom_eq (d : List UInt8) (p : Nat) :
    fbase64DFrom ((fbase64e d).length / 4) (fbase64e d) p =
      some (storesFrom p (d ++ List.replicate (padding d.length) 0)) := by
  induction d using fbase64e.induct generalizing p with
  | case1 a b c d ih =>
    have hp : padding (d.length + 1 + 1 + 1) = padding d.length := by simp only [padding]; omega
    have hl : ((fbase64e d).length + 1 + 1 + 1 + 1) / 4 = (fbase64e d).length / 4 + 1 := by omega
    simp only [fbase64e, List.length_cons, hl, fbase64DFrom_bytes, ih, hp, Option.map_some, List.cons_append, storesFrom_cons,
      Nat.add_assoc, Nat.reduceAdd]
  | case2 a b =>
    have hl : (fbase64e [a, b]).length / 4 = 1 := by simp [fbase64e]
    rw [hl, fbase64e, fbase64D_last2]
    rfl
  | case3 a =>
    have hl : (fbase64e [a]).length / 4 = 1 := by simp [fbase64e]
    rw [hl, fbase64e, fbase64D_last1]
    rfl
  | case4 => rfl

theorem fbase64D_eq (d : List UInt8) :
    fbase64D (fbase64e d) (fbase64e d).length = some (storesFrom 0 (d ++ List.replicate (padding d.length) 0)) :=
  fbase64DFrom_eq d 0

/-- The code determines the bytes, up to zeros at the end. -/
theorem fbase64e_inj {d d' : List UInt8} (hl : d'.length = d.length) (h : fbase64e d' = fbase64e d) : d' = d := by
  have hd := fbase64D_eq d'
  rw [h, fbase64D_eq d, Option.some.injEq] at hd
  exact (List.append_inj (storesFrom_inj hd) hl.symm).1.symm

/-! ## Any text wrap the alphabet -/

theorem mem_alphabet {c : Char} (h : c ∈ fbase64Alphabet) : ∃ k < 64, c = al64 k := by
  obtain ⟨k, hk⟩ := List.mem_iff_get.1 h
  have hlen : k.1 < 64 := k.2
  refine ⟨k, hlen, hk.symm.trans ?_⟩
  simp only [al64, List.get_eq_getElem]
  congr 1
  exact (Nat.mod_eq_of_lt hlen).symm

theorem exists_fbase64e : ∀ (t : Str), t.length % 4 = 0 → (∀ c ∈ t, c ∈ fbase64Alphabet) →
    ∃ d, fbase64e d = t ∧ d.length % 3 = 0
  | [], _, _ => ⟨[], rfl, rfl⟩
  | [_], h, _ => absurd h (by simp)
  | [_, _], h, _ => absurd h (by simp)
  | [_, _, _], h, _ => absurd h (by simp)
  | w :: x :: y :: z :: t, h, hm => by
    obtain ⟨d, hd, hl⟩ := exists_fbase64e t (by simp only [List.length_cons] at h; omega) fun c hc => hm c (by simp [hc])
    obtain ⟨k0, h0, rfl⟩ := mem_alphabet (hm w (by simp))
    obtain ⟨k1, h1, rfl⟩ := mem_alphabet (hm x (by simp))
    obtain ⟨k2, h2, rfl⟩ := mem_alphabet (hm y (by simp))
    obtain ⟨k3, h3, rfl⟩ := mem_alphabet (hm z (by simp))
    refine ⟨UInt8.ofNat (k0 * 4 + k1 / 16) :: UInt8.ofNat (k1 % 16 * 16 + k2 / 4) :: UInt8.ofNat (k2 % 4 * 64 + k3) :: d,
      ?_, by simp only [List.length_cons]; omega⟩
    have ha : (UInt8.ofNat (k0 * 4 + k1 / 16)).toNat = k0 * 4 + k1 / 16 :=
      UInt8.toNat_ofNat_of_lt' (show _ < 256 by omega)
    have hb : (UInt8.ofNat (k1 % 16 * 16 + k2 / 4)).toNat = k1 % 16 * 16 + k2 / 4 :=
      UInt8.toNat_ofNat_of_lt' (show _ < 256 by omega)
    have hc : (UInt8.ofNat (k2 % 4 * 64 + k3)).toNat = k2 % 4 * 64 + k3 :=
      UInt8.toNat_ofNat_of_lt' (show _ < 256 by omega)
    simp only [fbase64e, hd, etabHigh6, etabHigh24, etabLow42, etabLow6, ha, hb, hc]
    congr 2
    · omega
    congr 2
    · omega
    congr 2
    · omega
    congr 2
    omega

/-! ## The codec as a whole -/

/-- Encoding fills the buffer's `szFbase64E` bytes, decoding gives the bytes
back, and neither loses anything. -/
theorem fbase64_roundtrip (d : List UInt8) :
    (∃ t s, fbase64E d d.length = some (storesFrom 0 (t ++ [nul])) ∧ t.length + 1 = szFbase64E d.length ∧
      (t = s ++ List.replicate (padding d.length) '=' ∧ padding d.length ≤ 2 ∧ ∀ c ∈ s, c ∈ fbase64Alphabet) ∧
      fbase64D t t.length = some (storesFrom 0 (d ++ List.replicate (padding d.length) 0))) ∧
    (∀ d' : List UInt8, d'.length = d.length → fbase64E d' d'.length = fbase64E d d.length → d' = d) ∧
    (∀ t : Str, t.length % 4 = 0 → (∀ c ∈ t, c ∈ fbase64Alphabet) →
      ∃ x, fbase64D t t.length = some (storesFrom 0 x) ∧ fbase64E x x.length = some (storesFrom 0 (t ++ [nul]))) := by
  refine ⟨?_, ?_, ?_⟩
  · obtain ⟨s, hs, hm⟩ := fbase64e_body d
    exact ⟨fbase64e d, s, fbase64E_eq d, fbase64e_size d, ⟨hs, by simp only [padding]; omega, hm⟩, fbase64D_eq d⟩
  · intro d' hl he
    rw [fbase64E_eq, fbase64E_eq, Option.some.injEq] at he
    exact fbase64e_inj hl (List.append_left_injective _ (storesFrom_inj he))
  · intro t ht hm
    obtain ⟨x, rfl, hx⟩ := exists_fbase64e t ht hm
    have hp : padding x.length = 0 := by simp only [padding]; omega
    have hd := fbase64D_eq x
    rw [hp, List.replicate_zero, List.append_nil] at hd
    exact ⟨x, hd, fbase64E_eq x⟩

example : fbase64D "TQ==".toList 4 = some [(0, 77), (1, 0), (2, 0)] := by decide

/-! ## `mkcookie` and its buffer -/

/-- `SZ_FBASE64_D` of an `int`. Where the product does not fit in one, it is
whatever `wrap` says. -/
def szFbase64D (wrap : Int → Int) (x : Int) : Int :=
  (if -2 ^ 31 ≤ x * 3 ∧ x * 3 < 2 ^ 31 then x * 3 else wrap x).tdiv 4

/-- What a call of `mkcookie` returned, the random bytes it took and its stores into the buffer. -/
structure Mkcookie where
  ret : Int
  tmp : List UInt8
  stores : List (Nat × Char)

/-- `mkcookie` as it fills `buf`, unless `fbase64_e` reads what `RAND_bytes` did not write. -/
def mkcookieBuf (wrap : Int → Int) (len : Int) (rand : Rand) : Option Mkcookie :=
  let len := len - 3
  let randbytes := szFbase64D wrap len
  if randbytes ≤ 0 ∨ randbytes > 1024 then some ⟨-1, [], []⟩
  else match rand with
    | none => some ⟨-2, [], []⟩
    | some r =>
      let tmp := (List.range randbytes.toNat).map r
      (fbase64E tmp randbytes.toNat).map fun stores => ⟨0, tmp, stores⟩

/-- A buffer of less than three bytes asks for no byte. -/
theorem szFbase64D_of_lt (wrap : Int → Int) {len : Nat} (h : len < 3) : szFbase64D wrap ((len : Int) - 3) ≤ 0 := by
  rw [szFbase64D, if_pos (by omega)]
  obtain rfl | rfl | rfl : len = 0 ∨ len = 1 ∨ len = 2 := by omega
  all_goals decide

theorem szFbase64D_of_fits (wrap : Int → Int) {len : Nat} (h : 3 ≤ len) (hf : ((len : Int) - 3) * 3 < 2 ^ 31) :
    szFbase64D wrap ((len : Int) - 3) = ((len - 3) * 3 / 4 : Nat) := by
  rw [szFbase64D, if_pos (by omega), Int.tdiv_eq_ediv_of_nonneg (by omega)]
  omega

/-- Three quarters of the room, rounded down, take up at most the room when encoded. -/
theorem szFbase64E_le (wrap : Int → Int) (len : Nat) {n : Nat} (hn : n ≤ 1024)
    (h : szFbase64D wrap ((len : Int) - 3) = n) (h0 : n ≠ 0) : szFbase64E n ≤ len := by
  unfold szFbase64E
  rcases Nat.lt_or_ge len 3 with hl | hl
  · have := szFbase64D_of_lt wrap hl
    omega
  by_cases hf : ((len : Int) - 3) * 3 < 2 ^ 31
  · rw [szFbase64D_of_fits wrap hl hf, Int.natCast_inj] at h
    omega
  · omega

theorem mkcookieBuf_some {wrap : Int → Int} {len : Int} {r : Nat → UInt8} {n : Nat} (h0 : n ≠ 0) (hn : n ≤ 1024)
    (h : szFbase64D wrap (len - 3) = n) :
    mkcookieBuf wrap len (some r) =
      some ⟨0, (List.range n).map r, storesFrom 0 (fbase64e ((List.range n).map r) ++ [nul])⟩ := by
  have hc : ¬((n : Int) ≤ 0 ∨ (n : Int) > 1024) := by omega
  have he := fbase64E_eq ((List.range n).map r)
  rw [List.length_map, List.length_range] at he
  simp only [mkcookieBuf, h, if_neg hc, Int.toNat_natCast, he, Option.map_some]

/-- `mkcookie` keeps to its buffer and to the bytes it drew, and refuses the rest. -/
theorem mkcookieBuf_within (wrap : Int → Int) (len : Nat) (rand : Rand) :
    ∃ m, mkcookieBuf wrap len rand = some m ∧
      (m.ret = 0 → m.tmp.length ≤ 1024 ∧ fbase64E m.tmp m.tmp.length = some m.stores ∧ m.stores.length ≤ len ∧
        ∀ s ∈ m.stores, s.1 < len) ∧
      (¬(1 ≤ szFbase64D wrap (len - 3) ∧ szFbase64D wrap (len - 3) ≤ 1024) → m.ret = -1 ∧ m.stores = []) := by
  by_cases hc : szFbase64D wrap (len - 3) ≤ 0 ∨ szFbase64D wrap (len - 3) > 1024
  · exact ⟨⟨-1, [], []⟩, by simp only [mkcookieBuf, if_pos hc], by simp, by simp⟩
  have hr : 1 ≤ szFbase64D wrap (len - 3) ∧ szFbase64D wrap (len - 3) ≤ 1024 := by omega
  cases rand with
  | none => exact ⟨⟨-2, [], []⟩, by simp only [mkcookieBuf, if_neg hc], by simp, fun h => absurd hr h⟩
  | some r =>
    obtain ⟨n, hn⟩ := Int.eq_ofNat_of_zero_le (show 0 ≤ szFbase64D wrap (len - 3) by omega)
    refine ⟨_, mkcookieBuf_some (by omega) (by omega) hn, fun _ => ?_, fun h => absurd hr h⟩
    have hsz := szFbase64E_le wrap len (by omega) hn (by omega)
    have hl := fbase64e_size ((List.range n).map r)
    rw [List.length_map, List.length_range] at hl
    refine ⟨by simp only [List.length_map, List.length_range]; omega, fbase64E_eq _, ?_, fun s hs => ?_⟩
    · rw [storesFrom_length, List.length_append, List.length_singleton]
      omega
    · have hs := (mem_storesFrom hs).2
      rw [List.length_append, List.length_singleton] at hs
      omega

/-- The value that `mkcookie` stands for elsewhere is the one it leaves in the buffer. -/
theorem mkcookieBuf_eq (wrap : Int → Int) {len : Nat} (hf : ((len : Int) - 3) * 3 < 2 ^ 31) (rand : Rand) (v : Str) :
    mkcookie len rand = some v ↔ ∃ tmp, mkcookieBuf wrap len rand = some ⟨0, tmp, storesFrom 0 (v ++ [nul])⟩ := by
  have hd : szFbase64D wrap ((len : Int) - 3) ≤ 0 ∧ (len - 3) * 3 / 4 = 0 ∨
      szFbase64D wrap ((len : Int) - 3) = ((len - 3) * 3 / 4 : Nat) := by
    rcases Nat.lt_or_ge len 3 with hl | hl
    · exact .inl ⟨szFbase64D_of_lt wrap hl, by omega⟩
    · exact .inr (szFbase64D_of_fits wrap hl hf)
  by_cases hc : (len - 3) * 3 / 4 = 0 ∨ (len - 3) * 3 / 4 > 1024
  · have hb : szFbase64D wrap ((len : Int) - 3) ≤ 0 ∨ szFbase64D wrap ((len : Int) - 3) > 1024 := by omega
    simp only [mkcookie, if_pos hc, mkcookieBuf, if_pos hb]
    simp
  cases rand with
  | none =>
    have hb : ¬(szFbase64D wrap ((len : Int) - 3) ≤ 0 ∨ szFbase64D wrap ((len : Int) - 3) > 1024) := by omega
    simp only [mkcookie, mkcookieBuf, if_neg hb, Option.map_none, ite_self]
    simp
  | some r =>
    have hs := mkcookieBuf_some (r := r) (by omega) (by omega) (hd.resolve_left (by omega))
    rw [hs]
    simp only [mkcookie, if_neg hc, Option.map_some, Option.some.injEq, Mkcookie.mk.injEq, true_and]
    constructor
    · rintro rfl
      exact ⟨_, rfl, rfl⟩
    · rintro ⟨-, -, h⟩
      exact List.append_left_injective _ (storesFrom_inj h)

end Cosign
