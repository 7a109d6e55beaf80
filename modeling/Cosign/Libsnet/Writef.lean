import Cosign.Lib.Segments
import Cosign.Common.Text
import Cosign.Libsnet.Reading
/-!
# The writer of libsnet

`snet_writeftv` formats into the write buffer of the connection, which grows by
`SNET_BUFLEN` where it is too small, and `snet_write` sends what is there, as
much at a time as the network takes.

`formatted` is what a format and its arguments mean, one piece for a character
or a conversion. The writer puts the pieces into its buffer one after another.
It copies a `%s` with `strcpy`, terminator and all, and makes room for the
characters only.
-/

namespace Cosign

open Lib

/-! ## Formats -/

inductive NumWidth where
  | int
  | long
  | longlong
  deriving DecidableEq

def NumWidth.bits : NumWidth → Nat
  | .int => 32
  | .long => 64
  | .longlong => 64

inductive FArg where
  | str (s : Str)
  | num (w : NumWidth) (v : Int)
  deriving DecidableEq

/-- `is_long`, `is_longlong`, `is_unsigned`. -/
structure FFlags where
  isLong : Bool
  isLongLong : Bool
  isUnsigned : Bool

def FFlags.none : FFlags := ⟨false, false, false⟩

/-- Which `va_arg` is taken for a number. -/
def FFlags.width (f : FFlags) : NumWidth :=
  if f.isLongLong then .longlong else if f.isLong then .long else .int

/-- The modifier `l`. -/
def FFlags.l (f : FFlags) : FFlags := if f.isLong then { f with isLongLong := true } else { f with isLong := true }

/-- The loop over the digits of a number, from the end of a buffer with `room`
bytes before it. It aborts where the buffer is full. -/
def wfDigits (b : Nat) (alpha : Nat → Char) : (room n : Nat) → (acc : Str) → Option Str
  | 0, _, _ => none
  | room + 1, n, acc =>
    if n / b = 0 then some (alpha (n % b) :: acc) else wfDigits b alpha room (n / b) (alpha (n % b) :: acc)

/-- `sizeof( dbuf )` -/
def dbufLen : Nat := 128

/-- `'0' + d` -/
def fromZero (d : Nat) : Char := Char.ofNat (48 + d)

def hexalpha (d : Nat) : Char := "0123456789abcdef".toList.getD d '0'
def hexALPHA (d : Nat) : Char := "0123456789ABCDEF".toList.getD d '0'

/-- A number as `va_arg` takes it with an unsigned type. -/
def asUnsigned (w : NumWidth) (v : Int) : Nat := (v % 2 ^ w.bits).toNat

/-- `SNET_WF_D`. The least number has no negative, and `- (x)` overflows. -/
def wfD (f : FFlags) (v : Int) : Option Str :=
  if f.isUnsigned then wfDigits 10 fromZero dbufLen (asUnsigned f.width v) []
  else
    let x := v.bmod (2 ^ f.width.bits)
    if x < 0 then
      if x = -2 ^ (f.width.bits - 1) then none
      else (wfDigits 10 fromZero dbufLen x.natAbs []).map ('-' :: ·)
    else wfDigits 10 fromZero dbufLen x.natAbs []

/-- The text of a conversion of a number. -/
def wfNumber (f : FFlags) (c : Char) (v : Int) : Option Str :=
  if c = 'd' then wfD f v
  else if c = 'o' then wfDigits 8 fromZero dbufLen (asUnsigned f.width v) []
  else if c = 'x' then wfDigits 16 hexalpha dbufLen (asUnsigned f.width v) []
  else if c = 'X' then wfDigits 16 hexALPHA dbufLen (asUnsigned f.width v) []
  else none

/-! ## The write buffer -/

structure Wbuf where
  wbuf : Nat → Char
  wbuflen : Nat
  cur : Nat

namespace Wbuf

/-- `SNET_WBUFGROW` -/
def grow (x : Nat) (w : Wbuf) : Wbuf :=
  if w.wbuflen < w.cur + x then grow x { w with wbuflen := w.wbuflen + snetBuflen } else w
termination_by w.cur + x - w.wbuflen
decreasing_by simp only [snetBuflen]; omega

/-- Characters behind `cur`, after room has been made for them. -/
def put (d : Str) (w : Wbuf) : Wbuf :=
  { w.grow d.length with wbuf := storeList w.wbuf w.cur d, cur := w.cur + d.length }

/-- `strcpy` of an argument: the terminator is stored too. -/
def strcpy (p : Str) (w : Wbuf) : Option Wbuf :=
  if (w.grow p.length).wbuflen < w.cur + p.length + 1 then none
  else some { w.grow p.length with wbuf := storeList w.wbuf w.cur (p ++ [nul]), cur := w.cur + p.length }

end Wbuf

/-- The loop over a format, with the flags where it is behind a `%`. A format
that ends there is read beyond its end. -/
def snetFormat : Option FFlags → Str → List FArg → Wbuf → Option Wbuf
  | none, [], _, w => some w
  | none, c :: r, args, w => if c = '%' then snetFormat (some .none) r args w else snetFormat none r args (w.put [c])
  | some _, [], _, _ => none
  | some f, c :: r, args, w =>
    if c = 'l' then snetFormat (some f.l) r args w
    else if c = 'u' then snetFormat (some { f with isUnsigned := true }) r args w
    else if c = 's' then
      match args with
      | .str p :: args => (w.strcpy p).bind (snetFormat none r args)
      | _ => none
    else if c = 'c' then
      match args with
      | .num .int v :: args => snetFormat none r args (w.put [Char.ofNat (v % 256).toNat])
      | _ => none
    else if c ∈ ['d', 'o', 'x', 'X'] then
      match args with
      | .num k v :: args => if k = f.width then (wfNumber f c v).bind fun t => snetFormat none r args (w.put t) else none
      | _ => none
    else snetFormat none r args (w.put ['%', 'E'])

/-! ## What a format means -/

/-- A number in the base of its conversion. -/
def numberText (f : FFlags) (c : Char) (v : Int) : Option Str :=
  if c = 'd' then
    if f.isUnsigned then some (dec (asUnsigned f.width v))
    else if v.bmod (2 ^ f.width.bits) = -2 ^ (f.width.bits - 1) then none
    else some (decInt (v.bmod (2 ^ f.width.bits)))
  else if c = 'o' then some (Nat.toDigits 8 (asUnsigned f.width v))
  else if c = 'x' then some (Nat.toDigits 16 (asUnsigned f.width v))
  else if c = 'X' then some ((Nat.toDigits 16 (asUnsigned f.width v)).map Char.toUpper)
  else none

/-- A piece of the text, and whether it is copied as a C string. -/
abbrev Piece := Str × Bool

def formatted : Option FFlags → Str → List FArg → Option (List Piece)
  | none, [], _ => some []
  | none, c :: r, args => if c = '%' then formatted (some .none) r args else (formatted none r args).map (([c], false) :: ·)
  | some _, [], _ => none
  | some f, c :: r, args =>
    if c = 'l' then formatted (some f.l) r args
    else if c = 'u' then formatted (some { f with isUnsigned := true }) r args
    else if c = 's' then
      match args with
      | .str p :: args => (formatted none r args).map ((p, true) :: ·)
      | _ => none
    else if c = 'c' then
      match args with
      | .num .int v :: args => (formatted none r args).map (([Char.ofNat (v % 256).toNat], false) :: ·)
      | _ => none
    else if c ∈ ['d', 'o', 'x', 'X'] then
      match args with
      | .num k v :: args =>
        if k = f.width then (numberText f c v).bind fun t => (formatted none r args).map ((t, false) :: ·) else none
      | _ => none
    else (formatted none r args).map ((['%', 'E'], false) :: ·)

def textOfPieces (ps : List Piece) : Str := (ps.map (·.1)).flatten

/-- What puts one piece into the buffer. -/
def Wbuf.add (w : Wbuf) (p : Piece) : Option Wbuf := if p.2 then w.strcpy p.1 else some (w.put p.1)

def Wbuf.addAll (w : Wbuf) : List Piece → Option Wbuf
  | [] => some w
  | p :: ps => (w.add p).bind (·.addAll ps)

/-! ### Digits -/

/-- The loop writes the digits it should, with room for them. -/
theorem wfDigits_eq {b : Nat} (hb : 1 < b) (alpha : Nat → Char) (g : Char → Char)
    (halpha : ∀ d < b, alpha d = g (Nat.digitChar d)) :
    ∀ (room n : Nat) (acc : Str), n < b ^ room → 0 < room →
      wfDigits b alpha room n acc = some ((Nat.toDigits b n).map g ++ acc) := by
  intro room
  induction room with
  | zero => exact fun n acc _ h => absurd h (lt_irrefl 0)
  | succ room ih =>
    intro n acc hn _
    have hdiv : n / b = 0 ↔ n < b := by rw [Nat.div_eq_zero_iff]; omega
    simp only [wfDigits, hdiv]
    rw [Nat.toDigits_eq_if hb]
    by_cases hlt : n < b
    · rw [if_pos hlt, if_pos hlt, Nat.mod_eq_of_lt hlt, halpha n hlt]
      rfl
    · have hsmall : n / b < b ^ room := Nat.div_lt_of_lt_mul (by rwa [← Nat.pow_succ'])
      have hroom : 0 < room := by
        rcases Nat.eq_zero_or_pos room with rfl | h
        · rw [Nat.zero_add, Nat.pow_one] at hn; exact absurd hn hlt
        · exact h
      rw [if_neg hlt, if_neg hlt, ih (n / b) _ hsmall hroom, halpha _ (Nat.mod_lt _ (by omega))]
      simp

theorem asUnsigned_lt (w : NumWidth) (v : Int) : asUnsigned w v < 2 ^ 64 := by
  cases w <;> simp only [asUnsigned, NumWidth.bits] <;> omega

theorem fromZero_eq : ∀ d < 10, fromZero d = id (Nat.digitChar d) := by decide
theorem hexalpha_eq : ∀ d < 16, hexalpha d = id (Nat.digitChar d) := by decide
theorem hexALPHA_eq : ∀ d < 16, hexALPHA d = (Nat.digitChar d).toUpper := by decide

/-- 64 bits fit into `dbuf` in any base. -/
theorem fits_dbuf {b n : Nat} (hb : 2 ≤ b) (hn : n ≤ 2 ^ 64) : n < b ^ dbufLen := by
  have h1 : 2 ^ dbufLen ≤ b ^ dbufLen := Nat.pow_le_pow_left hb _
  have h2 : 2 ^ 64 < 2 ^ dbufLen := Nat.pow_lt_pow_right (by decide) (by decide)
  omega

theorem wfDigits_id {b : Nat} (hb : 2 ≤ b) {alpha : Nat → Char} (halpha : ∀ d < b, alpha d = id (Nat.digitChar d))
    {n : Nat} (hn : n ≤ 2 ^ 64) : wfDigits b alpha dbufLen n [] = some (Nat.toDigits b n) := by
  rw [wfDigits_eq hb alpha id halpha dbufLen n [] (fits_dbuf hb hn) (by decide), List.map_id, List.append_nil]

/-- The conversions of numbers write what they should. -/
theorem wfNumber_eq (f : FFlags) (c : Char) (v : Int) : wfNumber f c v = numberText f c v := by
  have hu : ∀ w, asUnsigned w v ≤ 2 ^ 64 := fun w => (asUnsigned_lt w v).le
  unfold wfNumber numberText
  split
  · unfold wfD
    split
    · exact wfDigits_id (by decide) fromZero_eq (hu _)
    · have hbound : -2 ^ 63 ≤ v.bmod (2 ^ f.width.bits) ∧ v.bmod (2 ^ f.width.bits) < 2 ^ 63 := by
        have hlow := Int.le_bmod (x := v) (m := 2 ^ f.width.bits) (Nat.two_pow_pos _)
        have hhigh := Int.bmod_lt (x := v) (m := 2 ^ f.width.bits) (Nat.two_pow_pos _)
        generalize v.bmod (2 ^ f.width.bits) = x at hlow hhigh ⊢
        revert hlow hhigh
        cases f.width <;> simp only [NumWidth.bits] <;> omega
      have hmin : (-2 : Int) ^ (f.width.bits - 1) < 0 ∧ -(2 : Int) ^ (f.width.bits - 1) < 0 := by
        cases f.width <;> decide
      generalize v.bmod (2 ^ f.width.bits) = x at hbound ⊢
      cases x with
      | ofNat n =>
        have hne : ¬ (Int.ofNat n = -2 ^ (f.width.bits - 1)) := by
          intro h
          have := hmin.2
          rw [← h] at this
          exact absurd this (not_lt.2 (Int.natCast_nonneg n))
        have hn : ¬ (Int.ofNat n < 0) := not_lt.2 (Int.natCast_nonneg n)
        simp only [if_neg hne, if_neg hn, decInt]
        refine wfDigits_id (by decide) fromZero_eq ?_
        have := hbound.2
        simp only [Int.ofNat_eq_natCast, Int.natAbs_natCast] at *
        omega
      | negSucc n =>
        have hn : Int.negSucc n < 0 := Int.negSucc_lt_zero n
        simp only [if_pos hn, decInt]
        split
        · rfl
        · have hdig : wfDigits 10 fromZero dbufLen (Int.negSucc n).natAbs [] = some (dec (n + 1)) :=
            wfDigits_id (by decide) fromZero_eq (by have := hbound.1; simp only [Int.natAbs_negSucc]; omega)
          rw [hdig]
          rfl
  · split
    · exact wfDigits_id (by decide) (fun d hd => fromZero_eq d (by omega)) (hu _)
    · split
      · exact wfDigits_id (by decide) hexalpha_eq (hu _)
      · split
        · rw [wfDigits_eq (by decide) hexALPHA Char.toUpper hexALPHA_eq dbufLen _ [] (fits_dbuf (by decide) (hu _)) (by decide),
            List.append_nil]
        · rfl

/-- The writer puts the pieces of the format into its buffer, one after another. -/
theorem snetFormat_eq (m : Option FFlags) (fmt : Str) (args : List FArg) (w : Wbuf) :
    snetFormat m fmt args w = (formatted m fmt args).bind w.addAll := by
  induction fmt generalizing m args w with
  | nil => cases m <;> rfl
  | cons c r ih =>
    cases m with
    | none =>
      simp only [snetFormat, formatted]
      split
      · exact ih _ _ _
      · rw [ih]
        cases formatted none r args <;> rfl
    | some f =>
      simp only [snetFormat, formatted]
      split
      · exact ih _ _ _
      · split
        · exact ih _ _ _
        · split
          · split
            · rename_i p as
              simp only [ih]
              cases formatted none r as with
              | none => cases w.strcpy p <;> rfl
              | some ps => rfl
            · rfl
          · split
            · split
              · rename_i v as
                rw [ih]
                cases formatted none r as <;> rfl
              · rfl
            · split
              · split
                · rename_i k v as
                  split
                  · simp only [ih, wfNumber_eq]
                    cases numberText f c v with
                    | none => rfl
                    | some t => cases formatted none r as <;> rfl
                  · rfl
                · rfl
              · rw [ih]
                cases formatted none r args <;> rfl

/-! ## The room in the buffer -/

/-- What `grow` leaves. -/
structure WbufGrown (w w' : Wbuf) (x : Nat) : Prop where
  wbuf : w'.wbuf = w.wbuf
  cur : w'.cur = w.cur
  room : w.cur + x ≤ w'.wbuflen
  whole : snetBuflen ∣ w.wbuflen → snetBuflen ∣ w'.wbuflen
  least : w'.wbuflen = w.wbuflen ∨ w'.wbuflen < w.cur + x + snetBuflen
  above : w.wbuflen ≤ w'.wbuflen

theorem Wbuf.grow_spec (x : Nat) (w : Wbuf) : WbufGrown w (w.grow x) x := by
  induction w using Wbuf.grow.induct x with
  | case1 w hlt ih =>
    rw [Wbuf.grow, if_pos hlt]
    refine ⟨ih.wbuf, ih.cur, ih.room, fun h => ih.whole (Dvd.dvd.add h (dvd_refl _)), .inr ?_, ?_⟩
    · rcases ih.least with h | h
      · simp only [] at h; omega
      · exact h
    · have := ih.above
      simp only [] at this
      omega
  | case2 w hlt =>
    rw [Wbuf.grow, if_neg hlt]
    exact ⟨rfl, rfl, not_lt.1 hlt, id, .inl rfl, le_refl _⟩

/-- The write buffer during a call that found it `len` bytes long. -/
structure Wbuf.Holds (len : Nat) (w : Wbuf) : Prop where
  whole : snetBuflen ∣ w.wbuflen
  cur : w.cur ≤ w.wbuflen
  least : w.wbuflen = len ∨ w.wbuflen < w.cur + snetBuflen
  above : len ≤ w.wbuflen

/-- No `%s` ends at the end of the buffer, as large as it is then. -/
def RoomFor (len : Nat) : (cur : Nat) → List Piece → Prop
  | _, [] => True
  | cur, p :: ps => (p.2 = true → ¬ (len ≤ cur + p.1.length ∧ snetBuflen ∣ cur + p.1.length)) ∧ RoomFor len (cur + p.1.length) ps

instance RoomFor.decide (len : Nat) : ∀ (cur : Nat) (ps : List Piece), Decidable (RoomFor len cur ps)
  | _, [] => isTrue trivial
  | cur, p :: ps =>
    have := RoomFor.decide len (cur + p.1.length) ps
    inferInstanceAs (Decidable (_ ∧ _))

namespace Wbuf

theorem put_spec {len : Nat} {w : Wbuf} (h : w.Holds len) (d : Str) :
    (w.put d).Holds len ∧ (w.put d).cur = w.cur + d.length ∧
      segment (w.put d).wbuf 0 (w.put d).cur = segment w.wbuf 0 w.cur ++ d := by
  have hg := w.grow_spec d.length
  have hroom := hg.room
  have habove := hg.above
  refine ⟨⟨hg.whole h.whole, hroom, ?_, h.above.trans habove⟩, rfl, ?_⟩
  · simp only [put]
    rcases hg.least with h1 | h1 <;> rcases h.least with h2 | h2 <;> omega
  · have := segment_storeList_append w.wbuf 0 w.cur d
    rwa [Nat.zero_add] at this

/-- What `strcpy` stores beyond the characters is there for the next piece to
be put over, or is beyond the end of the buffer. -/
theorem strcpy_spec {len : Nat} {w : Wbuf} (h : w.Holds len) (p : Str) :
    (len ≤ w.cur + p.length ∧ snetBuflen ∣ w.cur + p.length → w.strcpy p = none) ∧
    (¬ (len ≤ w.cur + p.length ∧ snetBuflen ∣ w.cur + p.length) →
      ∃ w', w.strcpy p = some w' ∧ w'.Holds len ∧ w'.cur = w.cur + p.length ∧
        segment w'.wbuf 0 w'.cur = segment w.wbuf 0 w.cur ++ p) := by
  have hg := w.grow_spec p.length
  have hroom := hg.room
  have habove := hg.above
  obtain ⟨k, hk⟩ := hg.whole h.whole
  have hleast : (w.grow p.length).wbuflen = len ∨ (w.grow p.length).wbuflen < w.cur + p.length + snetBuflen := by
    rcases hg.least with h1 | h1 <;> rcases h.least with h2 | h2 <;> omega
  constructor
  · rintro ⟨hlen, j, hj⟩
    have hfull : (w.grow p.length).wbuflen = w.cur + p.length := by
      rcases hleast with h1 | h1
      · omega
      · rw [hk, hj] at hroom h1
        have hkj : k = j := by
          have h2 : j ≤ k := Nat.le_of_mul_le_mul_left hroom (by decide)
          have h3 : k < j + 1 := Nat.lt_of_mul_lt_mul_left (a := snetBuflen) (by rw [Nat.mul_add, Nat.mul_one]; exact h1)
          omega
        rw [hk, hj, hkj]
    rw [strcpy, if_pos (by omega)]
  · intro hnot
    have hlt : w.cur + p.length < (w.grow p.length).wbuflen := by
      refine lt_of_le_of_ne hroom fun he => hnot ⟨?_, he ▸ hg.whole h.whole⟩
      rw [he]
      exact h.above.trans habove
    refine ⟨{ w.grow p.length with wbuf := storeList w.wbuf w.cur (p ++ [nul]), cur := w.cur + p.length },
      by rw [strcpy, if_neg (by omega)], ⟨hg.whole h.whole, hroom, hleast, h.above.trans habove⟩, rfl, ?_⟩
    have hseg := segment_storeList_append w.wbuf 0 w.cur (p ++ [nul])
    rw [List.length_append, Nat.zero_add, ← Nat.add_assoc, ← List.append_assoc] at hseg
    have hcut := segment_succ (storeList w.wbuf w.cur (p ++ [nul])) 0 (w.cur + p.length)
    rw [List.length_singleton] at hseg
    rw [hseg] at hcut
    exact (List.append_inj_left' hcut.symm rfl)

theorem addAll_spec {len : Nat} (ps : List Piece) {w : Wbuf} (h : w.Holds len) :
    (¬ RoomFor len w.cur ps → w.addAll ps = none) ∧
    (RoomFor len w.cur ps → ∃ w', w.addAll ps = some w' ∧ w'.Holds len ∧
      segment w'.wbuf 0 w'.cur = segment w.wbuf 0 w.cur ++ textOfPieces ps) := by
  induction ps generalizing w with
  | nil => exact ⟨fun hn => absurd trivial hn, fun _ => ⟨w, rfl, h, (List.append_nil _).symm⟩⟩
  | cons p ps ih =>
    have hnext : ∀ {w' : Wbuf}, w.add p = some w' → w'.Holds len → w'.cur = w.cur + p.1.length →
        segment w'.wbuf 0 w'.cur = segment w.wbuf 0 w.cur ++ p.1 →
        (¬ RoomFor len (w.cur + p.1.length) ps → w.addAll (p :: ps) = none) ∧
        (RoomFor len (w.cur + p.1.length) ps → ∃ w', w.addAll (p :: ps) = some w' ∧ w'.Holds len ∧
          segment w'.wbuf 0 w'.cur = segment w.wbuf 0 w.cur ++ textOfPieces (p :: ps)) := by
      intro w' hadd hholds hcur hseg
      obtain ⟨hno, hyes⟩ := ih hholds
      rw [hcur] at hno
      have hall : w.addAll (p :: ps) = w'.addAll ps := by rw [addAll, hadd, Option.bind_some]
      rw [hall]
      refine ⟨hno, fun hf => ?_⟩
      obtain ⟨w₂, hrun, hholds₂, hseg₂⟩ := hyes (by rwa [hcur])
      refine ⟨w₂, hrun, hholds₂, ?_⟩
      rw [hseg₂, hseg, List.append_assoc]
      rfl
    cases hp : p.2 with
    | false =>
      obtain ⟨hholds, hcur, hseg⟩ := put_spec h p.1
      obtain ⟨hno, hyes⟩ := hnext (by rw [add, hp]; rfl) hholds hcur hseg
      simp only [RoomFor, hp, Bool.false_eq_true, false_implies, true_and]
      exact ⟨hno, hyes⟩
    | true =>
      obtain ⟨hover, hfits⟩ := strcpy_spec h p.1
      have hadd : w.add p = w.strcpy p.1 := by rw [add, hp]; rfl
      simp only [RoomFor, hp, forall_const]
      by_cases hend : len ≤ w.cur + p.1.length ∧ snetBuflen ∣ w.cur + p.1.length
      · refine ⟨fun _ => ?_, fun hf => absurd hend hf.1⟩
        rw [addAll, hadd, hover hend]
        rfl
      · obtain ⟨w', hcpy, hholds, hcur, hseg⟩ := hfits hend
        obtain ⟨hno, hyes⟩ := hnext (hadd.trans hcpy) hholds hcur hseg
        exact ⟨fun hn => hno fun hf => hn ⟨hend, hf⟩, fun hf => hyes hf.2⟩

end Wbuf

/-- `snet_writeftv` up to `snet_write`: what is to be sent, and the buffer. -/
def snetWriteftv (w : Wbuf) (fmt : Str) (args : List FArg) : Option (Str × Wbuf) :=
  (snetFormat none fmt args { w with cur := 0 }).map fun w => (segment w.wbuf 0 w.cur, w)

/-- The writer sends what the format means, with its numbers in their base,
unless it stores a terminator beyond its buffer: where a `%s` ends at the end of
the buffer, as large as it is then. The buffer never shrinks, and stays whole. -/
theorem writeftv_iff (w : Wbuf) (hw : snetBuflen ∣ w.wbuflen) (fmt : Str) (args : List FArg) :
    (snetWriteftv w fmt args).map (·.1) =
        ((formatted none fmt args).bind fun ps => if RoomFor w.wbuflen 0 ps then some (textOfPieces ps) else none) ∧
      ∀ t w', snetWriteftv w fmt args = some (t, w') → snetBuflen ∣ w'.wbuflen ∧ w.wbuflen ≤ w'.wbuflen := by
  have hholds : Wbuf.Holds w.wbuflen { w with cur := 0 } := ⟨hw, Nat.zero_le _, .inl rfl, le_refl _⟩
  rw [snetWriteftv, snetFormat_eq]
  cases formatted none fmt args with
  | none => exact ⟨rfl, fun _ _ h => by cases h⟩
  | some ps =>
    obtain ⟨hno, hyes⟩ := Wbuf.addAll_spec ps hholds
    simp only [Option.bind_some]
    by_cases hf : RoomFor w.wbuflen 0 ps
    · obtain ⟨w', hrun, hholds', hseg⟩ := hyes hf
      rw [if_pos hf, hrun]
      refine ⟨congrArg some hseg, fun t w₂ h => ?_⟩
      cases h
      exact ⟨hholds'.whole, hholds'.above⟩
    · rw [if_neg hf, hno hf]
      exact ⟨rfl, fun _ _ h => by cases h⟩

theorem writeftv_logout :
    (snetWriteftv ⟨fun _ => nul, 4096, 0⟩ "LOGOUT %s %d%X\r\n".toList [.str ['c'], .num .int (-12), .num .int 4294967215]).map
      (·.1) = some "LOGOUT c -12FFFFFFAF\r\n".toList :=
  (writeftv_iff ⟨fun _ => nul, 4096, 0⟩ (by decide) _ _).1.trans (by decide +kernel)

end Cosign
