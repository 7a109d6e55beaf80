import Cosign.Cgi.Check
import Cosign.Libsnet.Reading
/-!
# Replies of more than one line

`snet_getline_multi` reads up to the last line of a reply. Its callers write a
command and take one answer for it, so it has to stop where the reply does.
-/

namespace Cosign

open Lib

/-- What `snet_getline_multi` makes of a line: nothing, the last line, or one
that another follows. -/
def multiLine : Str → Option Bool
  | a :: b :: c :: rest =>
    if a.isDigit && b.isDigit && c.isDigit then
      match rest with
      | [] => some false
      | d :: _ => if d = nul ∨ d = ' ' then some false else if d = '-' then some true else none
    else none
  | _ => none

/-- `snet_getline_multi`, with a bound on the lines it reads. -/
def SNET.getlineMulti : Nat → SNET → Net → Option (Option Str × SNET × Net)
  | 0, _, _ => none
  | n + 1, sn, net =>
    (sn.getline net).bind fun x =>
      match x.1.map fun line => (line, multiLine line) with
      | some (line, some false) => some (some line, x.2)
      | some (_, some true) => SNET.getlineMulti n x.2.1 x.2.2
      | _ => some (none, x.2)

/-- The answers of so many calls. -/
def multiCalls (bound : Nat) : Nat → SNET → Net → Option (List (Option Str) × SNET × Net)
  | 0, sn, net => some ([], sn, net)
  | n + 1, sn, net =>
    (sn.getlineMulti bound net).bind fun x => (multiCalls bound n x.2.1 x.2.2).map fun y => (x.1 :: y.1, y.2)

/-- What a call makes of the lines that are left, and what it leaves of them. -/
def multiOf : List Str → Option Str × List Str
  | [] => (none, [])
  | l :: ls =>
    match multiLine l with
    | some false => (some l, ls)
    | some true => multiOf ls
    | none => (none, ls)

namespace SNET

variable {sn : SNET} {net : Net}

/-! ## One call -/

theorem multiOf_suffix (L : List Str) : (multiOf L).2 <:+ L := by
  induction L with
  | nil => exact List.suffix_refl []
  | cons l ls ih =>
    rw [multiOf]
    split
    · exact List.suffix_cons l ls
    · exact ih.trans (List.suffix_cons l ls)
    · exact List.suffix_cons l ls

/-- With the whole connection to come, a call reads the lines of one reply, and
a bound that they all come under is not reached. -/
theorem getlineMulti_spec (n : Nat) (h : Sound sn net) (hst : net.Steady ∨ sn.text net = [])
    (hlong : sn.maxlen ≠ 0 → ∀ l ∈ ends.linesOf (sn.text net), l.length < sn.maxlen)
    (hn : (ends.linesOf (sn.text net)).length < n) :
    ∃ sn' net', sn.getlineMulti n net = some ((multiOf (ends.linesOf (sn.text net))).1, sn', net') ∧ Sound sn' net' ∧
      sn'.maxlen = sn.maxlen ∧ (net'.Steady ∨ sn'.text net' = []) ∧
      ends.linesOf (sn'.text net') = (multiOf (ends.linesOf (sn.text net))).2 := by
  induction n generalizing sn net with
  | zero => omega
  | succ n ih =>
    obtain ⟨sn₁, net₁, hrun, hsound, hm, hst₁, hrest⟩ := getline_next h hst hlong
    rw [getlineMulti, hrun, Option.bind_some]
    cases hL : ends.linesOf (sn.text net) with
    | nil =>
      rw [hL] at hrest
      exact ⟨sn₁, net₁, rfl, hsound, hm, hst₁, hrest⟩
    | cons x L =>
      rw [hL] at hrest hlong hn
      simp only [List.getElem?_cons_zero, Option.map_some, multiOf]
      cases hx : multiLine x with
      | none => exact ⟨sn₁, net₁, rfl, hsound, hm, hst₁, hrest⟩
      | some b =>
        cases b with
        | false => exact ⟨sn₁, net₁, rfl, hsound, hm, hst₁, hrest⟩
        | true =>
          have hrest : ends.linesOf (sn₁.text net₁) = L := hrest
          have hlong₁ : sn₁.maxlen ≠ 0 → ∀ y ∈ ends.linesOf (sn₁.text net₁), y.length < sn₁.maxlen := by
            intro hne y hy
            rw [hrest] at hy
            rw [hm] at hne ⊢
            exact hlong hne y (List.mem_cons_of_mem _ hy)
          obtain ⟨sn', net', hgo, hsound', hm', hst', hrest'⟩ := ih hsound hst₁ hlong₁ (by
            rw [hrest]
            simp only [List.length_cons] at hn
            omega)
          rw [hrest] at hgo hrest'
          exact ⟨sn', net', hgo, hsound', hm'.trans hm, hst', hrest'⟩

/-- The answers of so many calls, from the lines. -/
def multiAnswers : Nat → List Str → List (Option Str)
  | 0, _ => []
  | n + 1, L => (multiOf L).1 :: multiAnswers n (multiOf L).2

theorem multiCalls_spec (bound n : Nat) (h : Sound sn net) (hst : net.Steady ∨ sn.text net = [])
    (hlong : sn.maxlen ≠ 0 → ∀ l ∈ ends.linesOf (sn.text net), l.length < sn.maxlen)
    (hbound : (ends.linesOf (sn.text net)).length < bound) :
    ∃ sn' net', multiCalls bound n sn net = some (multiAnswers n (ends.linesOf (sn.text net)), sn', net') := by
  induction n generalizing sn net with
  | zero => exact ⟨sn, net, rfl⟩
  | succ n ih =>
    obtain ⟨sn₁, net₁, hrun, hsound, hm, hst₁, hrest⟩ := getlineMulti_spec bound h hst hlong hbound
    have hsuffix := multiOf_suffix (ends.linesOf (sn.text net))
    rw [← hrest] at hsuffix
    obtain ⟨sn', net', hmore⟩ := ih hsound hst₁ (fun hne l hl => by
      rw [hm] at hne ⊢
      exact hlong hne l (hsuffix.subset hl)) (lt_of_le_of_lt hsuffix.length_le hbound)
    refine ⟨sn', net', ?_⟩
    rw [multiCalls, hrun, Option.bind_some, hmore, multiAnswers, hrest]
    rfl

end SNET

/-! ## The daemon's replies -/

def Reply.isLast : Reply → Bool
  | .line .. => true
  | _ => false

/-- A reply of one line, with a code of three digits. -/
structure OnWire (r : Reply) : Prop where
  code : ∃ code text, (100 ≤ code ∧ code < 1000) ∧ (r = .line code text ∨ r = .more code text)
  line : ∀ c ∈ r.wire, ¬ SNET.ends.isEnd c

theorem dec_three {n : Nat} (h : 100 ≤ n ∧ n < 1000) :
    dec n = [Nat.digitChar (n / 10 / 10), Nat.digitChar (n / 10 % 10), Nat.digitChar (n % 10)] := by
  rw [dec, Nat.toDigits_eq_if (by decide), if_neg (by omega), Nat.toDigits_eq_if (by decide), if_neg (by omega),
    Nat.toDigits_eq_if (by decide), if_pos (by omega)]
  rfl

/-- The reader sees whether another line follows. -/
theorem multiLine_wire {r : Reply} (h : OnWire r) : multiLine r.wire = some (!r.isLast) := by
  obtain ⟨code, text, hcode, hr⟩ := h.code
  have hdigits : ∀ c ∈ dec code, c.isDigit = true := dec_isDigit code
  have hthree := dec_three hcode
  rw [hthree] at hdigits
  simp only [List.forall_mem_cons] at hdigits
  obtain ⟨h1, h2, h3, -⟩ := hdigits
  rcases hr with rfl | rfl
  · rw [Reply.wire, hthree]
    simp [multiLine, h1, h2, h3, Reply.isLast]
  · rw [Reply.wire, hthree]
    simp [multiLine, h1, h2, h3, Reply.isLast, nul]

/-- A call takes the lines up to the next last one. -/
theorem multiOf_replies {rs : List Reply} (h : ∀ r ∈ rs, OnWire r) :
    ∃ rs', multiOf (rs.map Reply.wire) = (((rs.filter Reply.isLast).map Reply.wire)[0]?, rs'.map Reply.wire) ∧
      rs'.filter Reply.isLast = (rs.filter Reply.isLast).tail ∧ rs' <:+ rs := by
  induction rs with
  | nil => exact ⟨[], rfl, rfl, List.suffix_refl []⟩
  | cons r rs ih =>
    have hline := multiLine_wire (h r List.mem_cons_self)
    rw [List.map_cons, multiOf, hline]
    cases hr : r.isLast with
    | true =>
      refine ⟨rs, ?_, ?_, List.suffix_cons r rs⟩
      · rw [List.filter_cons_of_pos hr]
        rfl
      · rw [List.filter_cons_of_pos hr]
        rfl
    | false =>
      obtain ⟨rs', hof, hlast, hsub⟩ := ih fun x hx => h x (List.mem_cons_of_mem _ hx)
      have hskip : (r :: rs).filter Reply.isLast = rs.filter Reply.isLast :=
        List.filter_cons_of_neg (by rw [hr]; decide)
      rw [hskip]
      exact ⟨rs', hof, hlast, hsub.trans (List.suffix_cons r rs)⟩

theorem multiAnswers_replies (n : Nat) {rs : List Reply} (h : ∀ r ∈ rs, OnWire r) :
    SNET.multiAnswers n (rs.map Reply.wire) = (List.range n).map (((rs.filter Reply.isLast).map Reply.wire)[·]?) := by
  induction n generalizing rs with
  | zero => rfl
  | succ n ih =>
    obtain ⟨rs', hof, hlast, hsub⟩ := multiOf_replies h
    rw [SNET.multiAnswers, hof, ih fun r hr => h r (hsub.subset hr), hlast, List.range_succ_eq_map, List.map_cons, List.map_map]
    refine congrArg _ (List.map_congr_left fun i _ => ?_)
    rw [List.map_tail, Function.comp_apply, List.getElem?_tail]

/-- Whatever pieces the network makes of them, and however many lines they have,
the replies are read one for each call: none is taken twice, none is left over
for the next command. -/
theorem replies_in_step {rs : List Reply} (h : ∀ r ∈ rs, OnWire r) {net : Net} (hend : net.Ended) (hst : net.Steady)
    (hnet : net.bytes = SNET.ends.written '\r' (rs.map Reply.wire)) (rbuf : Nat → Char) (max n bound : Nat)
    (hmax : max ≠ 0 → ∀ r ∈ rs, r.wire.length < max) (hbound : rs.length < bound) :
    ∃ sn net', multiCalls bound n (.attach rbuf max) net =
      some ((List.range n).map (((rs.filter Reply.isLast).map Reply.wire)[·]?), sn, net') := by
  have hlines : SNET.ends.linesOf net.bytes = rs.map Reply.wire := by
    rw [hnet]
    refine SNET.ends.linesOf_written rfl ?_
    rintro l hl
    obtain ⟨r, hr, rfl⟩ := List.mem_map.1 hl
    exact (h r hr).line
  have hlong : max ≠ 0 → ∀ l ∈ SNET.ends.linesOf net.bytes, l.length < max := by
    intro hne l hl
    rw [hlines] at hl
    obtain ⟨r, hr, rfl⟩ := List.mem_map.1 hl
    exact hmax hne r hr
  obtain ⟨sn, net', hrun⟩ := SNET.multiCalls_spec bound n (SNET.attach_sound rbuf max hend) (.inl hst)
    (by rwa [SNET.attach_text]) (by rw [SNET.attach_text, hlines, List.length_map]; exact hbound)
  rw [SNET.attach_text, hlines, multiAnswers_replies n h] at hrun
  exact ⟨sn, net', hrun⟩

theorem replies_in_step_two : ∃ sn net',
    multiCalls 9 3 (.attach (fun _ => 'x') 1048576)
        [.data "241-cosign-wiki=xyz\r\n24".toList, .data "1 Cookies registered and sent\r".toList,
          .data "\n534 CHECK: Who me? Dunno.\r\n".toList, .eof] =
      some ([some "241 Cookies registered and sent".toList, some "534 CHECK: Who me? Dunno.".toList, none], sn, net') := by
  have h241 : dec 241 = ['2', '4', '1'] := by decide
  have h534 : dec 534 = ['5', '3', '4'] := by decide
  have hwire : ∀ r ∈ [Reply.more 241 "cosign-wiki=xyz".toList, .line 241 "Cookies registered and sent".toList,
      .line 534 "CHECK: Who me? Dunno.".toList], OnWire r := by
    intro r hr
    simp only [List.mem_cons, List.not_mem_nil, or_false] at hr
    rcases hr with rfl | rfl | rfl
    · exact ⟨⟨241, _, by decide, .inr rfl⟩, by simp [Reply.wire, h241, LineEnds.isEnd, SNET.ends, isEol]⟩
    · exact ⟨⟨241, _, by decide, .inl rfl⟩, by simp [Reply.wire, h241, LineEnds.isEnd, SNET.ends, isEol]⟩
    · exact ⟨⟨534, _, by decide, .inl rfl⟩, by simp [Reply.wire, h534, LineEnds.isEnd, SNET.ends, isEol]⟩
  have hend : Net.Ended [.data "241-cosign-wiki=xyz\r\n24".toList, .data "1 Cookies registered and sent\r".toList,
      .data "\n534 CHECK: Who me? Dunno.\r\n".toList, .eof] := ⟨rfl, trivial⟩
  exact replies_in_step hwire hend (by simp [Net.Steady]) (by decide +kernel) (fun _ => 'x') 1048576 3 9
    (by simp [Reply.wire, h241, h534]) (by decide)

end Cosign
