import Cosign.Lib.Lines
import Cosign.Lib.Segments
import Cosign.Libsnet.Snet
/-!
# The read buffer of libsnet

`snet_getline`, `snet_hasdata` and `snet_read` on the buffer itself: the bytes
at `sn_rbuf`, the offsets `sn_rcur` and `sn_rend` into it, the pullup, the
growth up to `sn_maxlen`, and the reads of `snet_readread` at `sn_rend`. An
access outside of the buffer is undefined. What the network brings is a list
of arrivals, in pieces of any size, with errors and timeouts between them.

`Reads` says what a call does to the text that is still to be read: it is the
same for any pieces. So every run of calls stays inside the buffer as long as
nothing comes after the end of the connection, and its answers depend on the
text alone.
-/

namespace Cosign

open Lib

/-- `SNET_BUFLEN` -/
def snetBuflen : Nat := 4096

/-- What `read` or `SSL_read` meets next. -/
inductive Arrival where
  | data (d : Str)
  /-- An error, or the time is up. -/
  | stop
  /-- The end of the connection: zero bytes. -/
  | eof
  deriving DecidableEq

abbrev Net := List Arrival

structure SNET where
  /-- What lies at `sn_rbuf`, beyond `sn_rbuflen` too. -/
  rbuf : Nat → Char
  rbuflen : Nat
  rcur : Nat
  /-- It can lie before the buffer. -/
  rend : Int
  maxlen : Nat
  rstate : RState

/-- What `snet_readread` returns. -/
inductive Got where
  | failed
  | eof
  | data (d : Str)

/-- As `snet_read` returns it. `none` is its error. -/
def Got.result : Got → Option Str
  | .failed => none
  | .eof => some []
  | .data d => some d

/-- `snet_readread` of up to `len` bytes. Where nothing arrives any more its
time runs out. -/
def snetReadread (len : Nat) : Net → Got × Net
  | [] => (.failed, [])
  | .stop :: net => (.failed, net)
  | .eof :: net => (.eof, net)
  | .data d :: net =>
    if d = [] then snetReadread len net
    else if d.length ≤ len then (.data d, net)
    else (.data (d.take len), .data (d.drop len) :: net)

/-- What a turn of the loop of `snet_getline` leads to. -/
inductive LineTurn where
  | undef
  | ret (line : Option Str) (sn : SNET) (net : Net)
  | next (sn : SNET) (eol : Int) (net : Net)

inductive Filled where
  | undef
  /-- `NULL` is returned. -/
  | null (sn : SNET) (net : Net)
  /-- The loop is left at the end of the connection. -/
  | cutOff (sn : SNET) (eol : Int) (net : Net)
  | more (sn : SNET) (eol : Int) (net : Net)

namespace SNET

/-- `snet_attach`; `rbuf` is what `malloc` returns. -/
def attach (rbuf : Nat → Char) (max : Nat) : SNET :=
  { rbuf, rbuflen := snetBuflen, rcur := 0, rend := 0, maxlen := max, rstate := .bol }

/-! ## `snet_getline` -/

/-- The pullup, with where it leaves `eol`. -/
def pullup (sn : SNET) (eol : Int) : SNET × Int :=
  if 0 < sn.rcur then
    ({ sn with
        rbuf := if sn.rcur < sn.rend then moveToFront sn.rbuf sn.rcur (sn.rend - sn.rcur).toNat else sn.rbuf
        rend := sn.rend - sn.rcur
        rcur := 0 }, sn.rend - sn.rcur)
  else (sn, eol)

/-- The growth, `none` where the buffer may not grow. -/
def expand (sn : SNET) (eol : Int) : Option (SNET × Int) :=
  if sn.rend = sn.rbuflen then
    if sn.maxlen ≠ 0 ∧ sn.maxlen ≤ sn.rbuflen then none
    else some ({ sn with rbuflen := sn.rbuflen + snetBuflen, rend := sn.rend - sn.rcur, rcur := 0 }, sn.rend - sn.rcur)
  else some (sn, eol)

/-- `snet_readread` behind `sn_rend`. -/
def readMore (sn : SNET) (eol : Int) (net : Net) : Filled :=
  match snetReadread (sn.rbuflen - sn.rend).toNat net with
  | (.failed, net) => .null sn net
  | (.eof, net) => if sn.rcur < sn.rend then .cutOff sn eol net else .null sn net
  | (.data d, net) =>
    if sn.rend < 0 ∨ sn.rbuflen < sn.rend + d.length then .undef
    else .more { sn with rbuf := storeList sn.rbuf sn.rend.toNat d, rend := sn.rend + d.length } eol net

/-- What `snet_getline` does where it needs more. -/
def refill (sn : SNET) (eol : Int) (net : Net) : Filled :=
  if sn.rbuflen < sn.rend then .undef
  else
    match (sn.pullup eol).1.expand (sn.pullup eol).2 with
    | none => .null (sn.pullup eol).1 net
    | some x => x.1.readMore x.2 net

/-- From `*eol = '\0'` on. -/
def finish (sn : SNET) (eol : Int) (net : Net) : LineTurn :=
  if eol < 0 ∨ sn.rbuflen ≤ eol then .undef
  else .ret (some (segment sn.rbuf sn.rcur (eol.toNat - sn.rcur)))
    { sn with rbuf := Function.update sn.rbuf eol.toNat nul, rcur := eol.toNat + 1 } net

/-- The character at `eol`. -/
def look (sn : SNET) (eol : Int) (net : Net) : LineTurn :=
  if eol < 0 ∨ sn.rbuflen ≤ eol then .undef
  else if isEol (sn.rbuf eol.toNat) then finish { sn with rstate := .fuzzy } eol net
  else if sn.rbuf eol.toNat = '\n' then
    if sn.rstate = .fuzzy then .next { sn with rstate := .bol, rcur := eol.toNat + 1 } (eol + 1) net
    else finish { sn with rstate := .bol } eol net
  else .next { sn with rstate := .within } (eol + 1) net

def turn (sn : SNET) (eol : Int) (net : Net) : LineTurn :=
  if sn.rend ≤ eol then
    match sn.refill eol net with
    | .undef => .undef
    | .null sn net => .ret none sn net
    | .cutOff sn eol net => sn.finish eol net
    | .more sn eol net => sn.look eol net
  else sn.look eol net

end SNET

/-! ## Arrivals -/

namespace Net

/-- The bytes that are still to come. -/
def bytes : Net → Str
  | [] => []
  | .data d :: net => d ++ bytes net
  | _ :: net => bytes net

/-- Nothing comes after the end of the connection. -/
def Ended : Net → Prop
  | [] => True
  | .eof :: net => bytes net = [] ∧ Ended net
  | _ :: net => Ended net

/-- The connection comes to its end, with no error before. -/
def Steady (net : Net) : Prop := Arrival.stop ∉ net ∧ Arrival.eof ∈ net

instance (net : Net) : Decidable net.Steady := inferInstanceAs (Decidable (_ ∧ _))

def size : Net → Nat
  | [] => 0
  | .data d :: net => d.length + 1 + size net
  | _ :: net => size net + 1

end Net

/-- What a read returns, and what is still to come after it. -/
inductive ReadSpec (len : Nat) (net : Net) : Got × Net → Prop
  | failed (net' : Net) (hb : net'.bytes = net.bytes) (he : net.Ended → net'.Ended) (hs : ¬ net.Steady) :
      ReadSpec len net (.failed, net')
  | eof (net' : Net) (hb : net'.bytes = net.bytes) (he : net.Ended → net'.Ended ∧ net.bytes = []) :
      ReadSpec len net (.eof, net')
  | data (d : Str) (net' : Net) (hb : net.bytes = d ++ net'.bytes) (hd : d ≠ []) (hlen : d.length ≤ len)
      (he : net.Ended → net'.Ended) (hs : net.Steady → net'.Steady) (hsize : net'.size + d.length ≤ net.size) :
      ReadSpec len net (.data d, net')

theorem snetReadread_spec {len : Nat} (hlen : 0 < len) (net : Net) : ReadSpec len net (snetReadread len net) := by
  induction net with
  | nil => exact .failed [] rfl id (by simp [Net.Steady])
  | cons a net ih =>
    cases a with
    | stop => exact .failed net rfl id (by simp [Net.Steady])
    | eof => exact .eof net rfl fun h => ⟨h.2, h.1⟩
    | data d =>
      simp only [snetReadread]
      by_cases hd : d = []
      · subst hd
        rw [if_pos rfl]
        have hst : ∀ {n : Net}, Net.Steady (.data [] :: n) ↔ n.Steady := by simp [Net.Steady]
        generalize snetReadread len net = x at ih ⊢
        cases ih with
        | failed net' hb he hs => exact .failed net' hb he fun h => hs (hst.1 h)
        | eof net' hb he => exact .eof net' hb he
        | data e net' hb hne hl he hs hsize =>
          exact .data e net' hb hne hl he (fun h => hs (hst.1 h)) (by simp only [Net.size]; omega)
      · rw [if_neg hd]
        by_cases hl : d.length ≤ len
        · rw [if_pos hl]
          exact .data d net rfl hd hl id (by simp [Net.Steady]) (by simp only [Net.size]; omega)
        · rw [if_neg hl]
          have hlen' : (d.take len).length = len := by rw [List.length_take]; omega
          refine .data (d.take len) _ ?_ ?_ hlen'.le id (by simp [Net.Steady]) ?_
          · simp only [Net.bytes]; rw [← List.append_assoc, List.take_append_drop]
          · intro h; rw [h] at hlen'; simp at hlen'; omega
          · simp only [Net.size, List.length_drop, hlen']; omega

/-! ## What is still to be read -/

namespace SNET

/-- The ends of lines: a carriage return, a NUL and the newline. -/
def ends : LineEnds Char := { lf := '\n', cr := isEol, cr_lf := by decide }

def content (sn : SNET) : Str := segment sn.rbuf sn.rcur (sn.rend - sn.rcur).toNat

def fuzzy (sn : SNET) : Bool := sn.rstate = .fuzzy

/-- The text that is still to be read, in the buffer and to come. -/
def text (sn : SNET) (net : Net) : Str := ends.skip sn.fuzzy (sn.content ++ net.bytes)

/-- The size of the buffer. -/
structure Sized (sn : SNET) : Prop where
  whole : ∃ k, sn.rbuflen = snetBuflen * (k + 1)
  bound : sn.maxlen ≠ 0 → sn.rbuflen < sn.maxlen + snetBuflen ∨ sn.rbuflen = snetBuflen

/-- The reader between two calls. After a line that was cut off, `sn_rcur` is
one beyond `sn_rend`, and nothing is to come. -/
structure Sound (sn : SNET) (net : Net) : Prop where
  sized : sn.Sized
  within : sn.rend ≤ sn.rbuflen
  order : (sn.rcur : Int) ≤ sn.rend ∨ sn.rend = sn.rcur - 1 ∧ net.bytes = []
  ended : net.Ended

/-- The loop of `snet_getline` at `eol`: what it has seen holds no end of a
line, and it has seen nothing while the reader is in `SNET_FUZZY`. -/
structure Seen (sn : SNET) (eol : Int) : Prop where
  low : (sn.rcur : Int) ≤ eol
  high : eol ≤ sn.rend
  clean : ∀ c ∈ segment sn.rbuf sn.rcur (eol - sn.rcur).toNat, ¬ ends.isEnd c
  start : sn.rstate = .fuzzy → eol = sn.rcur

/-- What a call of `snet_getline` does with the text. -/
structure Line (maxlen : Nat) (net : Net) (t : Str) (l : Option Str) (net' : Net) (t' : Str) : Prop where
  taken : ∀ x, l = some x → ends.cutLine t = some (x, t')
  kept : l = none →
    t' = t ∧ (t = [] ∨ ¬ net.Steady ∨ maxlen ≠ 0 ∧ ∀ x r, ends.cutLine t = some (x, r) → maxlen ≤ x.length)
  steady : net.Steady → l ≠ none → net'.Steady ∨ t' = []

theorem segment_finish {m : Nat → Char} {e i n : Nat} (h : e < i) :
    segment (Function.update m e nul) i n = segment m i n :=
  segment_congr fun k _ => Function.update_of_ne (by omega) _ _

/-- What has been seen, the character at `eol`, and the rest. -/
theorem content_at {sn : SNET} {e : Nat} (hlow : sn.rcur ≤ e) (hhigh : (e : Int) < sn.rend) :
    sn.content = segment sn.rbuf sn.rcur (e - sn.rcur) ++
      sn.rbuf e :: segment sn.rbuf (e + 1) (sn.rend - (e + 1 : Nat)).toNat := by
  have hn : (sn.rend - sn.rcur).toNat = (e - sn.rcur) + ((sn.rend - (e + 1 : Nat)).toNat + 1) := by omega
  have he : sn.rcur + (e - sn.rcur) = e := by omega
  rw [content, hn, segment_add, he]
  rfl

section Loop
variable {sn : SNET} {net : Net}

theorem Sound.setState (h : Sound sn net) (st : RState) : Sound { sn with rstate := st } net :=
  ⟨⟨h.sized.whole, h.sized.bound⟩, h.within, h.order, h.ended⟩

/-- What the end of a turn leaves of the text: the line, and all that comes
after the character at `eol`. -/
theorem finish_spec (h : Sound sn net) {e : Nat} (hlow : sn.rcur ≤ e) (hhigh : (e : Int) < sn.rend) :
    ∃ sn', sn.finish e net = .ret (some (segment sn.rbuf sn.rcur (e - sn.rcur))) sn' net ∧ Sound sn' net ∧
      sn'.maxlen = sn.maxlen ∧ sn'.rstate = sn.rstate ∧
      sn'.content = segment sn.rbuf (e + 1) (sn.rend - (e + 1 : Nat)).toNat := by
  have hin := h.within
  refine ⟨{ sn with rbuf := Function.update sn.rbuf e nul, rcur := e + 1 }, ?_, ?_, rfl, rfl, ?_⟩
  · rw [finish, if_neg (by omega)]; rfl
  · exact ⟨⟨h.sized.whole, h.sized.bound⟩, hin, .inl (by simp only []; omega), h.ended⟩
  · exact segment_finish (Nat.lt_succ_self e)

/-- The character at `eol` ends the line, or is the newline of the line before,
or is one more of the line. -/
theorem look_spec (h : Sound sn net) {e : Nat} (hs : Seen sn e) (hhigh : (e : Int) < sn.rend) :
    (∃ l sn', sn.look e net = .ret (some l) sn' net ∧ Sound sn' net ∧ sn'.maxlen = sn.maxlen ∧
      ends.cutLine (sn.text net) = some (l, sn'.text net)) ∨
    ∃ sn', sn.look e net = .next sn' (e + 1 : Nat) net ∧ Sound sn' net ∧ Seen sn' (e + 1 : Nat) ∧
      sn'.maxlen = sn.maxlen ∧ sn'.text net = sn.text net ∧ sn'.rend = sn.rend := by
  have hin := h.within
  have hlow : sn.rcur ≤ e := by have := hs.low; omega
  have hclean : ∀ c ∈ segment sn.rbuf sn.rcur (e - sn.rcur), ¬ ends.isEnd c := by
    have := hs.clean
    rwa [show ((e : Int) - sn.rcur).toNat = e - sn.rcur by omega] at this
  have hat := content_at hlow hhigh
  have hguard : ¬ ((e : Int) < 0 ∨ (sn.rbuflen : Int) ≤ e) := by omega
  -- in `SNET_FUZZY` nothing has been seen, else nothing is skipped
  have hempty : sn.rstate = .fuzzy → segment sn.rbuf sn.rcur (e - sn.rcur) = [] := by
    intro hf
    have := hs.start hf
    rw [show e - sn.rcur = 0 by omega]; rfl
  have hlfe : isEol '\n' = false := by decide
  rw [look, if_neg hguard]
  by_cases hc : isEol (sn.rbuf e) = true
  · obtain ⟨sn', hfin, hsound, hmax, hst, hcont⟩ := finish_spec (h.setState .fuzzy) hlow hhigh
    refine .inl ⟨_, sn', by simpa [hc] using hfin, hsound, hmax, ?_⟩
    have hne : sn.rbuf e ≠ '\n' := by rintro he; rw [he] at hc; exact absurd hc (by decide)
    have htext : sn.text net = segment sn.rbuf sn.rcur (e - sn.rcur) ++
        sn.rbuf e :: (segment sn.rbuf (e + 1) (sn.rend - (e + 1 : Nat)).toNat ++ net.bytes) := by
      rw [text, hat, List.append_assoc, List.cons_append]
      by_cases hf : sn.rstate = .fuzzy
      · rw [hempty hf, List.nil_append, ends.skip_other hne]
      · rw [show sn.fuzzy = false from decide_eq_false hf, LineEnds.skip_false]
    rw [htext, ends.cutLine_cr hclean hc, text, hcont, show sn'.fuzzy = true from decide_eq_true hst]
  · by_cases hn : sn.rbuf e = '\n'
    · by_cases hf : sn.rstate = .fuzzy
      · refine .inr ⟨{ sn with rstate := .bol, rcur := e + 1 }, by simp [hlfe, hn, hf], ?_, ?_, rfl, ?_, rfl⟩
        · exact ⟨⟨h.sized.whole, h.sized.bound⟩, hin, .inl (by simp only []; omega), h.ended⟩
        · exact ⟨le_refl _, by simp only []; omega, by simp, by simp⟩
        · have hlf : ends.skip true ('\n' :: (segment sn.rbuf (e + 1) (sn.rend - (e + 1 : Nat)).toNat ++ net.bytes)) =
              segment sn.rbuf (e + 1) (sn.rend - (e + 1 : Nat)).toNat ++ net.bytes := ends.skip_lf _
          rw [text, text, hat, hempty hf, hn, show sn.fuzzy = true from decide_eq_true hf, List.nil_append,
            List.cons_append, hlf]
          exact LineEnds.skip_false _ _
      · obtain ⟨sn', hfin, hsound, hmax, hst, hcont⟩ := finish_spec (h.setState .bol) hlow hhigh
        refine .inl ⟨_, sn', by simpa [hlfe, hn, hf] using hfin, hsound, hmax, ?_⟩
        have hfz : sn'.fuzzy = false := decide_eq_false (by rw [hst]; exact RState.noConfusion)
        rw [text, text, hat, hcont, hn, hfz, show sn.fuzzy = false from decide_eq_false hf, LineEnds.skip_false,
          LineEnds.skip_false, List.append_assoc, List.cons_append]
        exact ends.cutLine_lf hclean _
    · refine .inr ⟨{ sn with rstate := .within }, by simp [hc, hn], h.setState _, ?_, rfl, ?_, rfl⟩
      · refine ⟨by simp only []; omega, by simp only []; omega, ?_, by simp⟩
        rw [show (((e + 1 : Nat) : Int) - sn.rcur).toNat = (e - sn.rcur) + 1 by omega, segment_succ]
        intro c hcm
        rcases List.mem_append.1 hcm with hcm | hcm
        · exact hclean c hcm
        · rw [List.mem_singleton.1 hcm, show sn.rcur + (e - sn.rcur) = e by omega]
          exact not_or.2 ⟨hc, hn⟩
      · have hskip : ∀ t, ends.skip sn.fuzzy (sn.content ++ t) = sn.content ++ t := by
          intro t
          by_cases hf : sn.rstate = .fuzzy
          · rw [hat, hempty hf, List.nil_append, List.cons_append]
            exact ends.skip_other hn _ _
          · rw [show sn.fuzzy = false from decide_eq_false hf, LineEnds.skip_false]
        rw [text, text, hskip]
        exact LineEnds.skip_false _ _

/-- The buffer has moved, and holds what it held. -/
structure Same (sn sn' : SNET) : Prop where
  content : sn'.content = sn.content
  maxlen : sn'.maxlen = sn.maxlen
  rstate : sn'.rstate = sn.rstate

theorem Same.trans {a b c : SNET} (h : Same a b) (h' : Same b c) : Same a c :=
  ⟨h'.content.trans h.content, h'.maxlen.trans h.maxlen, h'.rstate.trans h.rstate⟩

theorem Same.text {a b : SNET} (h : Same a b) (net : Net) : b.text net = a.text net := by
  rw [SNET.text, SNET.text, h.content, fuzzy, h.rstate, fuzzy]

/-- The line that is being read lies at the front of the buffer. -/
structure AtFront (sn : SNET) : Prop where
  front : sn.rcur = 0
  rend : sn.rend = sn.content.length
  sized : sn.Sized

theorem content_length (h : (sn.rcur : Int) ≤ sn.rend) : (sn.content.length : Int) = sn.rend - sn.rcur := by
  rw [content, segment_length]; omega

theorem pullup_spec (hs : sn.Sized) (hle : (sn.rcur : Int) ≤ sn.rend) :
    Same sn (sn.pullup sn.rend).1 ∧ AtFront (sn.pullup sn.rend).1 ∧
      (sn.pullup sn.rend).2 = (sn.pullup sn.rend).1.rend ∧ (sn.pullup sn.rend).1.rbuflen = sn.rbuflen := by
  have hlen := content_length hle
  unfold pullup
  split
  · have hcont : SNET.content { sn with
        rbuf := if sn.rcur < sn.rend then moveToFront sn.rbuf sn.rcur (sn.rend - sn.rcur).toNat else sn.rbuf
        rend := sn.rend - sn.rcur
        rcur := 0 } = sn.content := by
      simp only [content, Nat.cast_zero, Int.sub_zero]
      split
      · exact segment_moveToFront _ _ _
      · rw [show (sn.rend - sn.rcur).toNat = 0 by omega]; rfl
    exact ⟨⟨hcont, rfl, rfl⟩, ⟨rfl, by rw [hcont, hlen], ⟨hs.whole, hs.bound⟩⟩, rfl, rfl⟩
  · have h0 : sn.rcur = 0 := by omega
    have hfront : AtFront sn := ⟨h0, by omega, hs⟩
    exact ⟨⟨rfl, rfl, rfl⟩, hfront, rfl, rfl⟩

/-- The buffer grows where it is full, unless it has reached `sn_maxlen`. -/
theorem expand_spec (h : sn.AtFront) (hin : sn.rend ≤ sn.rbuflen) :
    match sn.expand sn.rend with
    | none => sn.maxlen ≠ 0 ∧ sn.maxlen ≤ sn.content.length
    | some x => Same sn x.1 ∧ AtFront x.1 ∧ x.2 = x.1.rend ∧ x.1.rend < x.1.rbuflen := by
  have hend := h.rend
  have hfront := h.front
  obtain ⟨k, hk⟩ := h.sized.whole
  unfold expand
  by_cases hfull : sn.rend = sn.rbuflen
  · rw [if_pos hfull]
    by_cases hmax : sn.maxlen ≠ 0 ∧ sn.maxlen ≤ sn.rbuflen
    · rw [if_pos hmax]
      exact ⟨hmax.1, by omega⟩
    · rw [if_neg hmax]
      have hcont : SNET.content { sn with rbuflen := sn.rbuflen + snetBuflen, rend := sn.rend - sn.rcur, rcur := 0 } =
          sn.content := by
        simp [content, hfront]
      refine ⟨⟨hcont, rfl, rfl⟩, ⟨rfl, by rw [hcont]; simp only []; omega, ⟨⟨k + 1, ?_⟩, ?_⟩⟩, rfl, ?_⟩
      · simp only [hk, Nat.mul_add, Nat.mul_one]
      · intro hm
        have := h.sized.bound hm
        simp only [snetBuflen] at *
        omega
      · simp only [snetBuflen]; omega
  · rw [if_neg hfull]
    exact ⟨⟨rfl, rfl, rfl⟩, h, rfl, by simp only []; omega⟩

/-- What was read lies behind what there was. -/
theorem content_store (h : sn.AtFront) (d : Str) :
    SNET.content { sn with rbuf := storeList sn.rbuf sn.rend.toNat d, rend := sn.rend + d.length } = sn.content ++ d := by
  have hend := h.rend
  have hfront := h.front
  have hn : (sn.rend + d.length - sn.rcur).toNat = (sn.rend - sn.rcur).toNat + d.length := by omega
  have hi : sn.rend.toNat = sn.rcur + (sn.rend - sn.rcur).toNat := by omega
  simp only [content]
  rw [hn, hi, segment_storeList_append]

/-- What a refill leads to, from a buffer that has been looked through: more of
the same text, or the end of it, or nothing. -/
inductive Refilled (sn : SNET) (net : Net) : Filled → Prop
  | null (sn' : SNET) (net' : Net) (hs : Sound sn' net') (hm : sn'.maxlen = sn.maxlen)
      (hl : Line sn.maxlen net (sn.text net) none net' (sn'.text net')) : Refilled sn net (.null sn' net')
  | cutOff (sn' : SNET) (net' : Net) (hs : Sound sn' net') (hsame : Same sn sn') (hb : net.bytes = [])
      (hb' : net'.bytes = []) (hne : sn'.content ≠ []) (hat : AtFront sn') (hroom : sn'.rend < sn'.rbuflen) :
      Refilled sn net (.cutOff sn' sn'.rend net')
  | more (sn' : SNET) (net' : Net) (d : Str) (hs : Sound sn' net') (hm : sn'.maxlen = sn.maxlen)
      (hr : sn'.rstate = sn.rstate) (hc : sn'.content = sn.content ++ d) (hd : d ≠ [])
      (hb : net.bytes = d ++ net'.bytes) (hat : AtFront sn') (hst : net.Steady → net'.Steady)
      (hsize : net'.size + d.length ≤ net.size) : Refilled sn net (.more sn' (sn'.rend - d.length) net')

/-- A line that fills the buffer is at least as long as the buffer. -/
theorem long_line {l t x r : Str} (hl : ∀ c ∈ l, ¬ ends.isEnd c) (h : ends.cutLine (l ++ t) = some (x, r)) :
    l.length ≤ x.length := by
  have hseen : ∀ (seen u : Str), ends.cutFrom seen u = some (x, r) → seen.length ≤ x.length := by
    intro seen u
    induction u generalizing seen with
    | nil =>
      intro hu
      simp only [LineEnds.cutFrom] at hu
      split at hu
      · cases hu
      · cases hu; exact le_refl _
    | cons c u ih =>
      intro hu
      simp only [LineEnds.cutFrom] at hu
      split at hu
      · cases hu; exact le_refl _
      · split at hu
        · cases hu; exact le_refl _
        · have := ih _ hu
          simp only [List.length_append, List.length_singleton] at this
          omega
  rw [LineEnds.cutLine, ends.cutFrom_append hl, List.nil_append] at h
  exact hseen l t h

theorem text_eq {sn sn' : SNET} {net net' : Net} (h : Same sn sn') (hb : net'.bytes = net.bytes) :
    sn'.text net' = sn.text net := by
  rw [text, text, h.content, hb, fuzzy, h.rstate, fuzzy]

/-- Nothing is skipped once a line has begun. -/
theorem text_begun (hstart : sn.rstate = .fuzzy → sn.content = []) (hne : sn.content ≠ []) :
    sn.text net = sn.content ++ net.bytes := by
  have hf : sn.fuzzy = false := decide_eq_false fun hf => hne (hstart hf)
  rw [text, hf, LineEnds.skip_false]

theorem AtFront.sound (h : AtFront sn) (hin : sn.rend ≤ sn.rbuflen) (he : net.Ended) : Sound sn net := by
  have hend := h.rend
  have hfront := h.front
  exact ⟨h.sized, hin, .inl (by omega), he⟩

theorem Line.stay {net net' : Net} {t : Str} (h : t = [] ∨ ¬ net.Steady) : Line sn.maxlen net t none net' t where
  taken := by simp
  kept _ := ⟨rfl, h.elim .inl fun h => .inr (.inl h)⟩
  steady _ h := absurd rfl h

theorem readMore_spec (hat : AtFront sn) (hroom : sn.rend < sn.rbuflen) (he : net.Ended) :
    Refilled sn net (sn.readMore sn.rend net) := by
  have hend := hat.rend
  have hfront := hat.front
  unfold readMore
  have hlen : 0 < (sn.rbuflen - sn.rend).toNat := by omega
  have hspec := snetReadread_spec hlen net
  generalize snetReadread (sn.rbuflen - sn.rend).toNat net = g at hspec ⊢
  cases hspec with
  | failed net' hb he' hs =>
    have htext : sn.text net' = sn.text net := text_eq ⟨rfl, rfl, rfl⟩ hb
    refine .null sn net' (hat.sound hroom.le (he' he)) rfl ?_
    rw [htext]
    exact Line.stay (.inr hs)
  | eof net' hb he' =>
    simp only []
    have hb0 : net.bytes = [] := (he' he).2
    by_cases hlt : (sn.rcur : Int) < sn.rend
    · rw [if_pos hlt]
      refine .cutOff sn net' (hat.sound hroom.le (he' he).1) ⟨rfl, rfl, rfl⟩ hb0 (hb.trans hb0) ?_ hat hroom
      intro h0
      rw [h0] at hend
      simp only [List.length_nil] at hend
      omega
    · rw [if_neg hlt]
      have hcont : sn.content = [] := List.length_eq_zero_iff.1 (by omega)
      have htext : sn.text net' = sn.text net := text_eq ⟨rfl, rfl, rfl⟩ hb
      refine .null sn net' (hat.sound hroom.le (he' he).1) rfl ?_
      rw [htext]
      exact Line.stay (.inl (by rw [text, hcont, hb0]; simp))
  | data d net' hb hd hlen he' hs hsize =>
    simp only []
    rw [if_neg (by omega)]
    have hcont := content_store hat d
    have hfront' : AtFront { sn with rbuf := storeList sn.rbuf sn.rend.toNat d, rend := sn.rend + d.length } := by
      refine ⟨hfront, ?_, ⟨hat.sized.whole, hat.sized.bound⟩⟩
      rw [hcont, List.length_append]
      simp only []
      omega
    have hmore : Refilled sn net (.more { sn with
        rbuf := storeList sn.rbuf sn.rend.toNat d
        rend := sn.rend + d.length } (sn.rend + d.length - d.length) net') :=
      .more _ net' d (hfront'.sound (by simp only []; omega) (he' he)) rfl rfl hcont hd hb hfront' hs hsize
    rwa [Int.add_sub_cancel] at hmore

/-- A refill, from a buffer that has been looked through. -/
theorem refill_spec (h : Sound sn net) (hle : (sn.rcur : Int) ≤ sn.rend) (hclean : ∀ c ∈ sn.content, ¬ ends.isEnd c)
    (hstart : sn.rstate = .fuzzy → sn.content = []) : Refilled sn net (sn.refill sn.rend net) := by
  obtain ⟨hsame, hfront, heol, hbuf⟩ := pullup_spec h.sized hle
  have hin : (sn.pullup sn.rend).1.rend ≤ (sn.pullup sn.rend).1.rbuflen := by
    have h1 := hfront.rend
    have h2 := content_length hle
    have h3 := h.within
    rw [hsame.content] at h1
    omega
  have hexp := expand_spec hfront hin
  rw [refill, if_neg (by have := h.within; omega), heol]
  cases hx : (sn.pullup sn.rend).1.expand (sn.pullup sn.rend).1.rend with
  | none =>
    rw [hx] at hexp
    simp only [hsame.maxlen, hsame.content] at hexp
    refine .null _ net (hfront.sound hin h.ended) hsame.maxlen ?_
    have hne : sn.content ≠ [] := by rintro h0; rw [h0] at hexp; exact hexp.1 (by simpa using hexp.2)
    rw [hsame.text, text_begun hstart hne]
    exact ⟨by simp, fun _ => ⟨rfl, .inr (.inr ⟨hexp.1, fun x r hcut => hexp.2.trans (long_line hclean hcut)⟩)⟩,
      fun _ h => absurd rfl h⟩
  | some x =>
    rw [hx] at hexp
    obtain ⟨hsame', hfront', heol', hroom⟩ := hexp
    have hall := hsame.trans hsame'
    have hread := readMore_spec hfront' hroom h.ended
    simp only [heol']
    generalize x.1.readMore x.1.rend net = f at hread ⊢
    cases hread with
    | null sn' net' hs hm hl =>
      rw [hall.maxlen, hall.text] at hl
      exact .null sn' net' hs (hm.trans hall.maxlen) hl
    | cutOff sn' net' hs hsame'' hb hb' hne hat hr => exact .cutOff sn' net' hs (hall.trans hsame'') hb hb' hne hat hr
    | more sn' net' d hs hm hr hc hd hb hat hst hsize =>
      exact .more sn' net' d hs (hm.trans hall.maxlen) (hr.trans hall.rstate) (by rw [hc, hall.content]) hd hb hat hst hsize

/-- After a line that was cut off there is nothing to be had. -/
theorem refill_gone (h : Sound sn net) (hgone : sn.rend = sn.rcur - 1) (hb : net.bytes = []) :
    ∃ sn' net', sn.refill sn.rcur net = .null sn' net' ∧ Sound sn' net' ∧ sn'.maxlen = sn.maxlen ∧
      sn'.rend = sn'.rcur - 1 ∧ net'.bytes = [] := by
  have hin := h.within
  obtain ⟨k, hk⟩ := h.sized.whole
  have hpull : ∃ m, (sn.pullup sn.rcur).1 = { sn with rbuf := m, rend := -1, rcur := 0 } := by
    unfold pullup
    split
    · exact ⟨_, by rw [hgone, show ((sn.rcur : Int) - 1 - sn.rcur) = -1 by omega]⟩
    · refine ⟨sn.rbuf, ?_⟩
      rw [show (-1 : Int) = sn.rend by omega, show (0 : Nat) = sn.rcur by omega]
  obtain ⟨m, hm⟩ := hpull
  have hexp : (sn.pullup sn.rcur).1.expand (sn.pullup sn.rcur).2 =
      some ({ sn with rbuf := m, rend := -1, rcur := 0 }, (sn.pullup sn.rcur).2) := by
    rw [hm, expand, if_neg (by simp only []; omega)]
  rw [refill, if_neg (by omega), hexp]
  simp only [readMore]
  have hlen : 0 < ((sn.rbuflen : Int) - -1).toNat := by omega
  have hspec := snetReadread_spec hlen net
  generalize snetReadread ((sn.rbuflen : Int) - -1).toNat net = g at hspec ⊢
  have hsound : ∀ net' : Net, net'.Ended → net'.bytes = [] →
      Sound { sn with rbuf := m, rend := -1, rcur := 0 } net' := fun net' he hb' =>
    ⟨⟨h.sized.whole, h.sized.bound⟩, by simp only []; omega, .inr ⟨rfl, hb'⟩, he⟩
  cases hspec with
  | failed net' hb' he hs => exact ⟨_, net', rfl, hsound net' (he h.ended) (hb'.trans hb), rfl, rfl, hb'.trans hb⟩
  | eof net' hb' he =>
    refine ⟨_, net', if_neg (by simp), hsound net' (he h.ended).1 (hb'.trans hb), rfl, rfl, hb'.trans hb⟩
  | data d net' hb' hd _ _ _ _ =>
    rw [hb] at hb'
    exact absurd (List.append_eq_nil_iff.1 hb'.symm).1 hd

end Loop

/-! ## The loop -/

def weight (sn : SNET) (eol : Int) (net : Net) : Nat := net.size + (sn.rend - eol).toNat

theorem look_next {sn sn' : SNET} {eol eol' : Int} {net net' : Net} (h : sn.look eol net = .next sn' eol' net') :
    eol' = eol + 1 ∧ sn'.rend = sn.rend ∧ net' = net := by
  have hfin : ∀ x : SNET, x.finish eol net ≠ .next sn' eol' net' := by
    intro x
    unfold finish
    split <;> exact LineTurn.noConfusion
  unfold look at h
  split at h
  · cases h
  · split at h
    · exact absurd h (hfin _)
    · split at h
      · split at h
        · cases h; exact ⟨rfl, rfl, rfl⟩
        · exact absurd h (hfin _)
      · cases h; exact ⟨rfl, rfl, rfl⟩

/-- Every refill uses up some of what was to come. -/
theorem refill_lt {sn sn' : SNET} {eol eol' : Int} {net net' : Net} (hend : sn.rend ≤ eol)
    (h : sn.refill eol net = .more sn' eol' net') : net'.size + (sn'.rend - (eol' + 1)).toNat < net.size := by
  unfold refill at h
  split at h
  · cases h
  · rename_i hin
    have hpull : (sn.pullup eol).1.rend ≤ (sn.pullup eol).2 ∧ (sn.pullup eol).1.rend ≤ (sn.pullup eol).1.rbuflen := by
      unfold pullup
      split
      · exact ⟨le_refl _, by simp only []; omega⟩
      · exact ⟨hend, by simp only []; omega⟩
    cases hx : (sn.pullup eol).1.expand (sn.pullup eol).2 with
    | none => rw [hx] at h; cases h
    | some x =>
      rw [hx] at h
      have hexp : x.1.rend ≤ x.2 ∧ x.1.rend < x.1.rbuflen := by
        unfold expand at hx
        split at hx
        · split at hx
          · cases hx
          · cases hx; exact ⟨le_refl _, by simp only [snetBuflen]; omega⟩
        · cases hx; exact ⟨hpull.1, lt_of_le_of_ne hpull.2 ‹_›⟩
      simp only [readMore] at h
      have hlen : 0 < (x.1.rbuflen - x.1.rend).toNat := by omega
      have hspec := snetReadread_spec hlen net
      generalize snetReadread (x.1.rbuflen - x.1.rend).toNat net = g at hspec h
      cases hspec with
      | failed => cases h
      | eof =>
        simp only [] at h
        split at h <;> cases h
      | data d net₁ hb hd hlen he hs hsize =>
        simp only [] at h
        split at h
        · cases h
        · cases h
          have := List.length_pos_of_ne_nil hd
          simp only []
          omega

theorem turn_lt {sn sn' : SNET} {eol eol' : Int} {net net' : Net} (h : sn.turn eol net = .next sn' eol' net') :
    weight sn' eol' net' < weight sn eol net := by
  unfold turn at h
  split at h
  · rename_i hend
    cases hf : sn.refill eol net with
    | undef => rw [hf] at h; cases h
    | null => rw [hf] at h; cases h
    | cutOff x e n =>
      rw [hf] at h
      simp only [finish] at h
      split at h <;> cases h
    | more x e n =>
      rw [hf] at h
      have hlt := refill_lt hend hf
      obtain ⟨rfl, hrend, rfl⟩ := look_next h
      simp only [weight, hrend]
      omega
  · obtain ⟨rfl, hrend, rfl⟩ := look_next h
    simp only [weight, hrend]
    omega

def getlineFrom (sn : SNET) (eol : Int) (net : Net) : Option (Option Str × SNET × Net) :=
  match h : sn.turn eol net with
  | .undef => none
  | .ret line sn net => some (line, sn, net)
  | .next sn eol net => getlineFrom sn eol net
termination_by weight sn eol net
decreasing_by exact turn_lt h

/-- `snet_getline` -/
def getline (sn : SNET) (net : Net) : Option (Option Str × SNET × Net) := sn.getlineFrom sn.rcur net

/-! ## `snet_read` -/

/-- `snet_hasdata` -/
def hasdata (sn : SNET) : Bool × SNET :=
  if sn.rcur < sn.rend then
    let sn := if sn.rstate = .fuzzy then
        { sn with rcur := if sn.rbuf sn.rcur = '\n' then sn.rcur + 1 else sn.rcur, rstate := .bol }
      else sn
    (decide (sn.rcur < sn.rend), sn)
  else (false, sn)

/-- `snet_read` of up to `n` bytes into the caller's own buffer. -/
def read (n : Nat) (sn : SNET) (net : Net) : Option (Option Str × SNET × Net) :=
  if sn.rbuflen < sn.rend then none
  else if sn.hasdata.1 then
    let sn := sn.hasdata.2
    let rc := min (sn.rend - sn.rcur).toNat n
    some (some (segment sn.rbuf sn.rcur rc), { sn with rcur := sn.rcur + rc }, net)
  else
    let sn := sn.hasdata.2
    match snetReadread n net with
    | (.data (c :: d), net) =>
      if sn.rstate = .fuzzy then
        if c = '\n' then
          if d = [] then some (Got.result (snetReadread n net).1, { sn with rstate := .bol }, (snetReadread n net).2)
          else some (some d, { sn with rstate := .bol }, net)
        else some (some (c :: d), { sn with rstate := .bol }, net)
      else some (some (c :: d), sn, net)
    | (g, net) => some (g.result, sn, net)

/-! ## What a call does to the text -/

section Calls
variable {sn : SNET} {net : Net}

theorem getlineFrom_ret {eol : Int} {l : Option Str} {sn' : SNET} {net' : Net}
    (h : sn.turn eol net = .ret l sn' net') : sn.getlineFrom eol net = some (l, sn', net') := by
  rw [getlineFrom]
  split
  · rename_i h'; rw [h] at h'; cases h'
  · rename_i h'; rw [h] at h'; cases h'; rfl
  · rename_i h'; rw [h] at h'; cases h'

theorem getlineFrom_next {eol eol' : Int} {sn' : SNET} {net' : Net}
    (h : sn.turn eol net = .next sn' eol' net') : sn.getlineFrom eol net = sn'.getlineFrom eol' net' := by
  conv => lhs; rw [getlineFrom]
  split
  · rename_i h'; rw [h] at h'; cases h'
  · rename_i h'; rw [h] at h'; cases h'
  · rename_i h'; rw [h] at h'; cases h'; rfl

theorem Line.of_some {net net' : Net} {t t' l : Str} {max : Nat} (h : ends.cutLine t = some (l, t'))
    (hst : net.Steady → net'.Steady ∨ t' = []) : Line max net t (some l) net' t' where
  taken x hx := by cases hx; exact h
  kept hx := by cases hx
  steady h _ := hst h

/-- One turn of the loop. -/
theorem turn_spec (h : Sound sn net) {eol : Int} (hle : (sn.rcur : Int) ≤ sn.rend) (hs : Seen sn eol) :
    (∃ l sn' net', sn.turn eol net = .ret l sn' net' ∧ Sound sn' net' ∧ sn'.maxlen = sn.maxlen ∧
      Line sn.maxlen net (sn.text net) l net' (sn'.text net')) ∨
    ∃ sn' eol' net', sn.turn eol net = .next sn' eol' net' ∧ Sound sn' net' ∧ (sn'.rcur : Int) ≤ sn'.rend ∧
      Seen sn' eol' ∧ sn'.maxlen = sn.maxlen ∧ sn'.text net' = sn.text net ∧ (net.Steady → net'.Steady) := by
  have hlow := hs.low
  by_cases hend : sn.rend ≤ eol
  · obtain rfl : eol = sn.rend := le_antisymm hs.high hend
    have hstart : sn.rstate = .fuzzy → sn.content = [] := by
      intro hf
      rw [content, hs.start hf, Int.sub_self]
      rfl
    have href := refill_spec h hle hs.clean hstart
    rw [turn, if_pos hend]
    generalize sn.refill sn.rend net = f at href ⊢
    cases href with
    | null sn' net' hsound hm hl => exact .inl ⟨none, sn', net', rfl, hsound, hm, hl⟩
    | cutOff sn' net' hsound hsame hb hb' hne hat hroom =>
      have hfront := hat.front
      have hrend := hat.rend
      have hcont : segment sn'.rbuf sn'.rcur (sn'.rend.toNat - sn'.rcur) = sn.content := by
        rw [← hsame.content, content, show (sn'.rend - sn'.rcur).toNat = sn'.rend.toNat - sn'.rcur by omega]
      refine .inl ⟨some sn.content,
        { sn' with rbuf := Function.update sn'.rbuf sn'.rend.toNat nul, rcur := sn'.rend.toNat + 1 }, net', ?_, ?_,
        hsame.maxlen, ?_⟩
      · simp only [finish]
        rw [if_neg (by omega), hcont]
      · exact ⟨⟨hsound.sized.whole, hsound.sized.bound⟩, hsound.within, .inr ⟨by simp only []; omega, hb'⟩, hsound.ended⟩
      · have hnil : text { sn' with rbuf := Function.update sn'.rbuf sn'.rend.toNat nul, rcur := sn'.rend.toNat + 1 } net' = [] := by
          rw [text, content, hb', show (sn'.rend - ((sn'.rend.toNat + 1 : Nat) : Int)).toNat = 0 by omega]
          simp
        rw [hnil]
        rw [hsame.content] at hne
        rw [text_begun hstart hne, hb, List.append_nil]
        exact Line.of_some (ends.cutLine_rest hs.clean hne) fun _ => .inr rfl
    | more sn' net' d hsound hm hr hc hd hb hat hst hsize =>
      have hfront := hat.front
      have hrend := hat.rend
      have hpos := List.length_pos_of_ne_nil hd
      have hlen : (sn'.content.length : Int) = sn.content.length + d.length := by rw [hc, List.length_append]; rfl
      have htext : sn'.text net' = sn.text net := by
        rw [text, text, hc, hb, fuzzy, hr, fuzzy, List.append_assoc]
      obtain ⟨e, he⟩ : ∃ e : Nat, sn'.rend - d.length = e := ⟨sn.content.length, by omega⟩
      have hseg : segment sn'.rbuf sn'.rcur (sn'.rend - d.length - sn'.rcur).toNat = sn.content := by
        have hsplit : sn'.content = segment sn'.rbuf sn'.rcur (sn'.rend - d.length - sn'.rcur).toNat ++
            segment sn'.rbuf (sn'.rcur + (sn'.rend - d.length - sn'.rcur).toNat) d.length := by
          rw [← segment_add, content]
          congr 1
          omega
        exact (List.append_inj (hsplit.symm.trans hc) (by rw [segment_length]; omega)).1
      have hseen : Seen sn' (sn'.rend - d.length) := by
        refine ⟨by omega, by omega, ?_, ?_⟩
        · rw [hseg]; exact hs.clean
        · intro hf
          rw [hr] at hf
          rw [hstart hf, List.length_nil] at hlen
          omega
      rw [he] at hseen ⊢
      rcases look_spec hsound hseen (by omega) with ⟨l, sn₂, hlook, hsound₂, hm₂, hcut⟩ |
        ⟨sn₂, hlook, hsound₂, hseen₂, hm₂, ht₂, hr₂⟩
      · refine .inl ⟨some l, sn₂, net', hlook, hsound₂, hm₂.trans hm, Line.of_some ?_ fun hs => .inl (hst hs)⟩
        rw [← htext]; exact hcut
      · exact .inr ⟨sn₂, _, net', hlook, hsound₂, hseen₂.low.trans hseen₂.high, hseen₂, hm₂.trans hm, ht₂.trans htext, hst⟩
  · obtain ⟨e, rfl⟩ : ∃ e : Nat, eol = e := ⟨eol.toNat, by omega⟩
    rw [turn, if_neg hend]
    rcases look_spec h hs (not_le.1 hend) with ⟨l, sn', hlook, hsound, hm, hcut⟩ |
      ⟨sn', hlook, hsound, hseen, hm, ht, hr⟩
    · exact .inl ⟨some l, sn', net, hlook, hsound, hm, Line.of_some hcut .inl⟩
    · exact .inr ⟨sn', _, net, hlook, hsound, hseen.low.trans hseen.high, hseen, hm, ht, id⟩

theorem getlineFrom_spec (h : Sound sn net) {eol : Int} (hle : (sn.rcur : Int) ≤ sn.rend) (hs : Seen sn eol) :
    ∃ l sn' net', sn.getlineFrom eol net = some (l, sn', net') ∧ Sound sn' net' ∧ sn'.maxlen = sn.maxlen ∧
      Line sn.maxlen net (sn.text net) l net' (sn'.text net') := by
  -- by what there is left to scan and to come
  induction hn : weight sn eol net using Nat.strong_induction_on generalizing sn eol net with
  | _ n ih =>
    rcases turn_spec h hle hs with ⟨l, sn', net', ht, hsound, hm, hl⟩ |
      ⟨sn₁, eol₁, net₁, ht, hsound, hle₁, hs₁, hm, htext, hst⟩
    · exact ⟨l, sn', net', getlineFrom_ret ht, hsound, hm, hl⟩
    · obtain ⟨l, sn', net', hrun, hsound', hm', hl⟩ := ih _ (hn ▸ turn_lt ht) hsound hle₁ hs₁ rfl
      refine ⟨l, sn', net', (getlineFrom_next ht).trans hrun, hsound', hm'.trans hm, ?_⟩
      rw [hm, htext] at hl
      exact ⟨hl.taken, fun hx => (hl.kept hx).imp id fun hk => hk.imp id fun hk => hk.imp (fun h hs => h (hst hs)) id,
        fun h => hl.steady (hst h)⟩

/-- A call of `snet_getline` takes the first line off the text, or leaves the
text as it is. -/
theorem getline_spec (h : Sound sn net) :
    ∃ l sn' net', sn.getline net = some (l, sn', net') ∧ Sound sn' net' ∧ sn'.maxlen = sn.maxlen ∧
      Line sn.maxlen net (sn.text net) l net' (sn'.text net') := by
  rcases h.order with hle | ⟨hgone, hb⟩
  · exact getlineFrom_spec h hle ⟨le_refl _, hle, by simp, fun _ => rfl⟩
  · obtain ⟨sn', net', href, hsound, hm, hgone', hb'⟩ := refill_gone h hgone hb
    have hturn : sn.turn sn.rcur net = .ret none sn' net' := by rw [turn, if_pos (by omega), href]
    have hnil : ∀ {x : SNET} {y : Net}, x.rend = x.rcur - 1 → y.bytes = [] → x.text y = [] := by
      intro x y hx hy
      rw [text, content, hy, show (x.rend - x.rcur).toNat = 0 by omega]
      simp
    refine ⟨none, sn', net', getlineFrom_ret hturn, hsound, hm, ?_⟩
    rw [hnil hgone hb, hnil hgone' hb']
    exact ⟨by simp, fun _ => ⟨rfl, .inl rfl⟩, fun _ h => absurd rfl h⟩

/-- What a call of `snet_read` of up to `n` bytes does with the text. -/
structure Piece (n : Nat) (net : Net) (t : Str) (d : Option Str) (net' : Net) (t' : Str) : Prop where
  taken : ∀ x, d = some x → t = x ++ t' ∧ x.length ≤ n ∧ (x = [] → t = [])
  kept : d = none → t' = t ∧ (t = [] ∨ ¬ net.Steady)
  steady : net.Steady → d ≠ none → net'.Steady ∨ t' = []

theorem content_cons (hlt : (sn.rcur : Int) < sn.rend) :
    sn.content = sn.rbuf sn.rcur :: segment sn.rbuf (sn.rcur + 1) (sn.rend - (sn.rcur + 1 : Nat)).toNat := by
  have := content_at (le_refl sn.rcur) hlt
  rwa [Nat.sub_self] at this

/-- `snet_hasdata` passes over the newline of the line before. -/
theorem hasdata_spec (h : Sound sn net) :
    Sound sn.hasdata.2 net ∧ sn.hasdata.2.maxlen = sn.maxlen ∧ sn.hasdata.2.text net = sn.text net ∧
      (sn.hasdata.1 = true → sn.hasdata.2.rstate ≠ .fuzzy ∧ (sn.hasdata.2.rcur : Int) < sn.hasdata.2.rend) ∧
      (sn.hasdata.1 = false → sn.hasdata.2.content = []) := by
  unfold hasdata
  by_cases hlt : (sn.rcur : Int) < sn.rend
  · simp only [if_pos hlt]
    have hcons := content_cons hlt
    by_cases hf : sn.rstate = .fuzzy
    · simp only [if_pos hf]
      have hfz : sn.fuzzy = true := decide_eq_true hf
      by_cases hn : sn.rbuf sn.rcur = '\n'
      · simp only [if_pos hn]
        refine ⟨⟨⟨h.sized.whole, h.sized.bound⟩, h.within, .inl (by simp only []; omega), h.ended⟩, trivial, ?_,
          fun hd => ⟨RState.noConfusion, of_decide_eq_true hd⟩, fun hd => ?_⟩
        · have hlf : ∀ t : Str, ends.skip true ('\n' :: t) = t := ends.skip_lf
          rw [text, text, hcons, hn, hfz, List.cons_append, hlf]
          exact LineEnds.skip_false _ _
        · have := of_decide_eq_false hd
          rw [content, Int.toNat_of_nonpos (by simp only [] at *; omega)]
          rfl
      · simp only [if_neg hn]
        refine ⟨h.setState .bol, trivial, ?_, fun _ => ⟨RState.noConfusion, hlt⟩, fun hd => ?_⟩
        · rw [text, text, hfz]
          have hc : SNET.content { sn with rstate := .bol } = sn.content := rfl
          rw [hc, hcons, List.cons_append, ends.skip_other hn, ends.skip_other hn]
        · exact absurd hlt (of_decide_eq_false hd)
    · simp only [if_neg hf]
      exact ⟨h, trivial, trivial, fun _ => ⟨hf, hlt⟩, fun hd => absurd hlt (of_decide_eq_false hd)⟩
  · simp only [if_neg hlt]
    refine ⟨h, trivial, trivial, by simp, fun _ => ?_⟩
    rw [content, Int.toNat_of_nonpos (by omega)]
    rfl

/-- What comes out of the buffer. -/
theorem segment_content (h : (sn.rcur : Int) < sn.rend) (n : Nat) :
    sn.content = segment sn.rbuf sn.rcur (min (sn.rend - sn.rcur).toNat n) ++
      SNET.content { sn with rcur := sn.rcur + min (sn.rend - sn.rcur).toNat n } := by
  have hsplit : (sn.rend - sn.rcur).toNat = min (sn.rend - sn.rcur).toNat n +
      (sn.rend - (sn.rcur + min (sn.rend - sn.rcur).toNat n : Nat)).toNat := by omega
  conv => lhs; rw [content, hsplit, segment_add]
  rfl

/-- What `snet_readread` brings, as `snet_read` returns it. -/
theorem result_spec {n : Nat} (hn : 0 < n) (he : net.Ended) :
    (snetReadread n net).2.Ended ∧
      Piece n net net.bytes (snetReadread n net).1.result (snetReadread n net).2 (snetReadread n net).2.bytes := by
  have hspec := snetReadread_spec hn net
  generalize snetReadread n net = g at hspec ⊢
  cases hspec with
  | failed net' hb he' hs => exact ⟨he' he, by simp [Got.result], fun _ => ⟨hb, .inr hs⟩, fun _ h => absurd rfl h⟩
  | eof net' hb he' =>
    have hb0 := (he' he).2
    refine ⟨(he' he).1, ?_, by simp [Got.result], fun _ _ => .inr (hb.trans hb0)⟩
    intro x hx
    cases hx
    exact ⟨hb.symm, Nat.zero_le _, fun _ => hb0⟩
  | data d net' hb hd hlen he' hs hsize =>
    refine ⟨he' he, ?_, by simp [Got.result], fun h _ => .inl (hs h)⟩
    intro x hx
    cases hx
    exact ⟨hb, hlen, fun h => absurd h hd⟩

theorem Piece.of_text {net net' : Net} {n : Nat} {t t' d : Str} (ht : t = d ++ t') (hlen : d.length ≤ n) (hne : d ≠ [])
    (hst : net.Steady → net'.Steady) : Piece n net t (some d) net' t' where
  taken x hx := by cases hx; exact ⟨ht, hlen, fun h => absurd h hne⟩
  kept hx := by cases hx
  steady h _ := .inl (hst h)

/-- With nothing in the buffer the text is what comes. -/
theorem text_of_empty (hc : sn.content = []) (net : Net) : sn.text net = ends.skip sn.fuzzy net.bytes := by
  rw [text, hc, List.nil_append]

theorem Sound.move (h : Sound sn net) (st : RState) {net' : Net} (he : net'.Ended) (hb : net.bytes = [] → net'.bytes = []) :
    Sound { sn with rstate := st } net' :=
  ⟨⟨h.sized.whole, h.sized.bound⟩, h.within, h.order.imp id fun h => ⟨h.1, hb h.2⟩, he⟩

/-- A call of `snet_read` takes a piece off the text, or leaves the text as it is. -/
theorem read_spec (h : Sound sn net) {n : Nat} (hn : 0 < n) :
    ∃ d sn' net', sn.read n net = some (d, sn', net') ∧ Sound sn' net' ∧ sn'.maxlen = sn.maxlen ∧
      Piece n net (sn.text net) d net' (sn'.text net') := by
  obtain ⟨hsound, hm, htext, hyes, hno⟩ := hasdata_spec h
  rw [read, if_neg (by have := h.within; omega), ← htext, ← hm]
  cases hd : sn.hasdata.1 with
  | true =>
    obtain ⟨hst, hlt⟩ := hyes hd
    simp only [if_true]
    generalize sn.hasdata.2 = s at hsound hst hlt
    have hsplit := segment_content hlt n
    have hfz : s.fuzzy = false := decide_eq_false hst
    refine ⟨_, _, net, rfl, ⟨⟨hsound.sized.whole, hsound.sized.bound⟩, hsound.within, .inl (by simp only []; omega),
      hsound.ended⟩, rfl, Piece.of_text ?_ ?_ ?_ id⟩
    · have hfz' : SNET.fuzzy { s with rcur := s.rcur + min (s.rend - s.rcur).toNat n } = false := hfz
      rw [text, text, hfz, hfz', LineEnds.skip_false, LineEnds.skip_false, ← List.append_assoc, ← hsplit]
    · rw [segment_length]; omega
    · intro h0
      have := congrArg List.length h0
      rw [segment_length, List.length_nil] at this
      omega
  | false =>
    have hc := hno hd
    simp only [Bool.false_eq_true, if_false]
    generalize sn.hasdata.2 = s at hsound hc
    have hc' : ∀ st, SNET.content { s with rstate := st } = [] := fun _ => hc
    have hspec := snetReadread_spec hn net
    generalize snetReadread n net = g at hspec ⊢
    cases hspec with
    | failed net' hb he hs =>
      refine ⟨none, s, net', rfl, hsound.move s.rstate (he h.ended) (hb.trans ·), rfl, ?_⟩
      rw [text_of_empty hc, text_of_empty hc, hb]
      exact ⟨by simp, fun _ => ⟨rfl, .inr hs⟩, fun _ h => absurd rfl h⟩
    | eof net' hb he =>
      have hb0 := (he h.ended).2
      refine ⟨some [], s, net', rfl, hsound.move s.rstate (he h.ended).1 (hb.trans ·), rfl, ?_⟩
      rw [text_of_empty hc, text_of_empty hc, hb, hb0, LineEnds.skip_nil]
      refine ⟨?_, by simp, fun _ _ => .inr rfl⟩
      intro x hx
      cases hx
      exact ⟨rfl, Nat.zero_le _, fun _ => rfl⟩
    | data d net' hb hd hlen he hs hsize =>
      obtain ⟨c, d, rfl⟩ := List.exists_cons_of_ne_nil hd
      have hb0 : net.bytes = [] → net'.bytes = [] := fun h0 => by rw [h0] at hb; cases hb
      have hmove := fun st => hsound.move st (he h.ended) hb0
      by_cases hf : s.rstate = .fuzzy
      · have hfz : s.fuzzy = true := decide_eq_true hf
        by_cases hcn : c = '\n'
        · -- the newline of the line before is left out
          have htext : s.text net = d ++ net'.bytes := by
            rw [text_of_empty hc, hfz, hb, hcn]
            exact ends.skip_lf _
          simp only [if_pos hf, if_pos hcn]
          by_cases hd0 : d = []
          · simp only [if_pos hd0]
            obtain ⟨he₂, hpiece⟩ := result_spec hn (he h.ended)
            have hbe : net'.bytes = [] → (snetReadread n net').2.bytes = [] := by
              intro h0
              cases hres : (snetReadread n net').1.result with
              | none => rw [(hpiece.kept hres).1, h0]
              | some x =>
                have := (hpiece.taken x hres).1
                rw [h0] at this
                exact (List.append_eq_nil_iff.1 this.symm).2
            refine ⟨_, _, _, rfl, (hmove .bol).move .bol he₂ hbe, rfl, ?_⟩
            rw [htext, hd0, text_of_empty (hc' _)]
            refine ⟨?_, fun hx => ?_, fun h hx => ?_⟩
            · exact fun x hx => (hpiece.taken x hx).imp (fun h => h.trans (congrArg _ (LineEnds.skip_false _ _).symm)) id
            · refine ⟨(LineEnds.skip_false _ _).trans (hpiece.kept hx).1, (hpiece.kept hx).2.imp id fun hk hst => hk (hs hst)⟩
            · exact (hpiece.steady (hs h) hx).imp id fun hk => (LineEnds.skip_false _ _).trans hk
          · simp only [if_neg hd0]
            refine ⟨some d, _, net', rfl, hmove .bol, rfl, Piece.of_text ?_ ?_ hd0 hs⟩
            · rw [htext, text_of_empty (hc' _)]
              exact congrArg _ (LineEnds.skip_false _ _).symm
            · simp only [List.length_cons] at hlen; omega
        · simp only [if_pos hf, if_neg hcn]
          refine ⟨some (c :: d), _, net', rfl, hmove .bol, rfl, Piece.of_text ?_ hlen hd hs⟩
          rw [text_of_empty hc, hb, List.cons_append, ends.skip_other hcn, text_of_empty (hc' _)]
          exact congrArg (c :: d ++ ·) (LineEnds.skip_false _ _).symm
      · have hfz : s.fuzzy = false := decide_eq_false hf
        simp only [if_neg hf]
        refine ⟨some (c :: d), s, net', rfl, hmove s.rstate, rfl, Piece.of_text ?_ hlen hd hs⟩
        rw [text_of_empty hc, text_of_empty hc, hb, hfz, LineEnds.skip_false, LineEnds.skip_false]

end Calls

end SNET

end Cosign
