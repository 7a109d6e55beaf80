import Cosign.Filter.Factors
/-!
# The banner

`connect_sn` reads the protocol from the second word of the server's banner, and
refuses the server if factors are required and that protocol has none. Where the
banner lists capabilities, `capa_parse` then takes the protocol from the number
at the head of the list, and nothing is compared again.
-/

namespace Cosign.Filter

/-! ## `strtol` with an end pointer -/

/-- The sign, and what follows it. -/
def strtolSplit (s : Str) : Bool × Str :=
  match s.dropWhile isspace with
  | '-' :: r => (true, r)
  | '+' :: r => (false, r)
  | r => (false, r)

/-- `errno` is `ERANGE`. -/
def strtolErange (s : Str) : Bool :=
  if (strtolSplit s).1 then digits (strtolSplit s).2 > 2 ^ 63 else digits (strtolSplit s).2 > 2 ^ 63 - 1

/-- Where it stops: at the beginning if there are no digits. -/
def strtolEnd (s : Str) : Str :=
  if (strtolSplit s).2.head?.any Char.isDigit then (strtolSplit s).2.dropWhile Char.isDigit else s

/-- A `long` as an `unsigned int`. -/
def toUnsigned (n : Int) : UInt32 := UInt32.ofNat (n % 2 ^ 32).toNat

/-! ## `capa_parse` -/

def capaFactors : Nat := 1

def capaRekey : Nat := 2

/-- `caps`: the name and the mask. -/
def caps : List (Str × Nat) := [("FACTORS".toList, capaFactors), ("REKEY".toList, capaRekey)]

/-- `strncasecmp` over the length of the name. -/
def hasCapa (name w : Str) : Bool := lower (w.take name.length) = lower name

/-- The loop over the capabilities, to the one that `]` follows. -/
def capaLoop : Nat → List Str → Nat
  | capa, [] => capa
  | capa, w :: ws =>
    match caps.find? fun c => capa &&& c.2 = 0 && hasCapa c.1 w with
    | none => capaLoop capa ws
    | some (name, mask) =>
      if (w.drop name.length).head? = some ']' then capa ||| mask else capaLoop (capa ||| mask) ws

/-- The number after `[COSIGNv`. -/
def listNumber (w : Str) : Str := w.drop "[COSIGNv".length

def capaParse (capa : Nat) : List Str → Option (Nat × UInt32)
  | [] => none
  | w :: ws =>
    if !hasPrefix "[COSIGNv".toList w then none
    else if strtolErange (listNumber w) then none
    else
      let proto := toUnsigned (strtol (listNumber w))
      match strtolEnd (listNumber w) with
      | [] => some (capaLoop capa ws, proto)
      | [']'] => some (capa, proto)
      | _ => none

/-! ## `connect_sn` -/

theorem capaParse_proto {capa capa' : Nat} {w : Str} {ws : List Str} {proto : UInt32}
    (h : capaParse capa (w :: ws) = some (capa', proto)) : proto = toUnsigned (strtol (listNumber w)) := by
  dsimp only [capaParse] at h
  split at h
  · cases h
  split at h
  · cases h
  split at h
  · cases h; rfl
  · cases h; rfl
  · cases h

end Cosign.Filter
