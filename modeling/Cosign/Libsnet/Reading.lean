import Cosign.Libsnet.Buffer
/-!
# Runs of the reader

Any calls of `snet_getline` and `snet_read` on one connection, in any order,
while the network brings its bytes in any pieces.
-/

namespace Cosign

open Lib

inductive SnetCall where
  | getline
  /-- `snet_read` of up to `n` bytes. -/
  | read (n : Nat) (pos : 0 < n)

def SnetCall.run : SnetCall → SNET → Net → Option (Option Str × SNET × Net)
  | .getline, sn, net => sn.getline net
  | .read n _, sn, net => sn.read n net

/-- The answers of the calls, and what they leave. -/
def runCalls : List SnetCall → SNET → Net → Option (List (Option Str) × SNET × Net)
  | [], sn, net => some ([], sn, net)
  | c :: cs, sn, net =>
    (c.run sn net).bind fun x => (runCalls cs x.2.1 x.2.2).map fun y => (x.1 :: y.1, y.2)

namespace SNET

/-- The calls are answered from the text `t`, and leave `u` of it. -/
inductive Answered : List SnetCall → Str → List (Option Str) → Str → Prop
  | nil (t : Str) : Answered [] t [] t
  /-- An error, the end of the connection, or a line for which there is no room. -/
  | nothing {cs t as u} (c : SnetCall) (h : Answered cs t as u) : Answered (c :: cs) t (none :: as) u
  | line {cs t l t' as u} (hcut : ends.cutLine t = some (l, t')) (h : Answered cs t' as u) :
      Answered (.getline :: cs) t (some l :: as) u
  | piece {cs n hn d t' as u} (hlen : d.length ≤ n) (hend : d = [] → t' = []) (h : Answered cs t' as u) :
      Answered (.read n hn :: cs) (d ++ t') (some d :: as) u

theorem call_spec (c : SnetCall) {sn : SNET} {net : Net} (h : Sound sn net) :
    ∃ a sn' net', c.run sn net = some (a, sn', net') ∧ Sound sn' net' ∧ sn'.maxlen = sn.maxlen ∧
      ∀ cs as u, Answered cs (sn'.text net') as u → Answered (c :: cs) (sn.text net) (a :: as) u := by
  cases c with
  | getline =>
    obtain ⟨l, sn', net', hrun, hsound, hm, hl⟩ := getline_spec h
    refine ⟨l, sn', net', hrun, hsound, hm, fun cs as u hu => ?_⟩
    cases l with
    | none => rw [(hl.kept rfl).1] at hu; exact .nothing _ hu
    | some l => exact .line (hl.taken l rfl) hu
  | read n pos =>
    obtain ⟨d, sn', net', hrun, hsound, hm, hd⟩ := read_spec h pos
    refine ⟨d, sn', net', hrun, hsound, hm, fun cs as u hu => ?_⟩
    cases d with
    | none => rw [(hd.kept rfl).1] at hu; exact .nothing _ hu
    | some d =>
      obtain ⟨ht, hlen, hnil⟩ := hd.taken d rfl
      rw [ht]
      refine .piece hlen (fun h0 => ?_) hu
      have := hnil h0
      rw [ht] at this
      exact (List.append_eq_nil_iff.1 this).2

theorem runCalls_spec (cs : List SnetCall) {sn : SNET} {net : Net} (h : Sound sn net) :
    ∃ as sn' net', runCalls cs sn net = some (as, sn', net') ∧ Sound sn' net' ∧ sn'.maxlen = sn.maxlen ∧
      Answered cs (sn.text net) as (sn'.text net') := by
  induction cs generalizing sn net with
  | nil => exact ⟨[], sn, net, rfl, h, rfl, .nil _⟩
  | cons c cs ih =>
    obtain ⟨a, sn₁, net₁, hrun, hsound, hm, hc⟩ := call_spec c h
    obtain ⟨as, sn', net', hrun', hsound', hm', has⟩ := ih hsound
    refine ⟨a :: as, sn', net', ?_, hsound', hm'.trans hm, hc cs as _ has⟩
    rw [runCalls, hrun, Option.bind_some, hrun']
    rfl

theorem attach_sound (rbuf : Nat → Char) (max : Nat) {net : Net} (h : net.Ended) : Sound (attach rbuf max) net :=
  ⟨⟨⟨0, rfl⟩, fun _ => .inr rfl⟩, Int.natCast_nonneg _, .inl (le_refl _), h⟩

theorem attach_text (rbuf : Nat → Char) (max : Nat) (net : Net) : (attach rbuf max).text net = net.bytes :=
  LineEnds.skip_false _ _

/-! ## The answers -/

/-- With the whole connection to come, and room for its lines, a call returns the
next one, or `NULL` after the last. -/
theorem getline_next {sn : SNET} {net : Net} (h : Sound sn net) (hst : net.Steady ∨ sn.text net = [])
    (hlong : sn.maxlen ≠ 0 → ∀ l ∈ ends.linesOf (sn.text net), l.length < sn.maxlen) :
    ∃ sn' net', sn.getline net = some ((ends.linesOf (sn.text net))[0]?, sn', net') ∧ Sound sn' net' ∧
      sn'.maxlen = sn.maxlen ∧ (net'.Steady ∨ sn'.text net' = []) ∧
      ends.linesOf (sn'.text net') = (ends.linesOf (sn.text net)).tail := by
  obtain ⟨l, sn', net', hrun, hsound, hm, hl⟩ := getline_spec h
  cases l with
  | some x =>
    have hcut := hl.taken x rfl
    have hlines := ends.linesOf_some hcut
    have hst' : net'.Steady ∨ sn'.text net' = [] := by
      refine hst.elim (fun hs => hl.steady hs (by simp)) fun h0 => ?_
      rw [h0] at hcut
      cases hcut
    rw [hlines]
    exact ⟨sn', net', hrun, hsound, hm, hst', rfl⟩
  | none =>
    obtain ⟨hsame, hwhy⟩ := hl.kept rfl
    have h0 : sn.text net = [] := by
      rcases hwhy with h0 | hns | ⟨hne, hbig⟩
      · exact h0
      · exact hst.resolve_left hns
      · by_contra hne0
        obtain ⟨p, hcut⟩ : ∃ p, ends.cutLine (sn.text net) = some p :=
          Option.ne_none_iff_exists'.1 fun h => hne0 (ends.cutLine_eq_none.1 h)
        have hmem : p.1 ∈ ends.linesOf (sn.text net) := by
          rw [ends.linesOf_some (l := p.1) (r := p.2) hcut]; exact List.mem_cons_self
        have := hlong hne p.1 hmem
        have := hbig p.1 p.2 hcut
        omega
    refine ⟨sn', net', ?_, hsound, hm, .inr (hsame.trans h0), ?_⟩
    · rw [hrun, h0, LineEnds.linesOf_nil]
      rfl
    · rw [hsame, h0, LineEnds.linesOf_nil]
      rfl

/-- So every call of a run returns the next line. -/
theorem getlines_spec (n : Nat) {sn : SNET} {net : Net} (h : Sound sn net) (hst : net.Steady ∨ sn.text net = [])
    (hlong : sn.maxlen ≠ 0 → ∀ l ∈ ends.linesOf (sn.text net), l.length < sn.maxlen) :
    ∃ sn' net', runCalls (List.replicate n .getline) sn net =
      some ((List.range n).map ((ends.linesOf (sn.text net))[·]?), sn', net') := by
  induction n generalizing sn net with
  | zero => exact ⟨sn, net, rfl⟩
  | succ n ih =>
    obtain ⟨sn₁, net₁, hrun, hsound, hm, hst₁, hrest⟩ := getline_next h hst hlong
    obtain ⟨sn', net', hrun'⟩ := ih hsound hst₁ fun hne x hx => hm ▸ hlong (hm ▸ hne) x (List.mem_of_mem_tail (hrest ▸ hx))
    refine ⟨sn', net', ?_⟩
    rw [List.replicate_succ, runCalls, SnetCall.run, hrun, Option.bind_some, hrun', List.range_succ_eq_map, List.map_cons,
      List.map_map, hrest]
    simp only [Option.map_some, Function.comp_def, Nat.succ_eq_add_one, List.getElem?_tail]

end SNET

/-- However its bytes arrive, and whatever is asked for in which order, the
reader stays inside its buffer, the buffer stays near `sn_maxlen`, and the
calls are answered from the bytes one after another. -/
theorem reader_serves (rbuf : Nat → Char) (max : Nat) (cs : List SnetCall) (net : Net) (h : net.Ended) :
    ∃ as sn net', runCalls cs (.attach rbuf max) net = some (as, sn, net') ∧
      SNET.Answered cs net.bytes as (sn.text net') ∧
      (max ≠ 0 → sn.rbuflen < max + snetBuflen ∨ sn.rbuflen = snetBuflen) := by
  obtain ⟨as, sn, net', hrun, hsound, hm, has⟩ := SNET.runCalls_spec cs (SNET.attach_sound rbuf max h)
  rw [SNET.attach_text] at has
  refine ⟨as, sn, net', hrun, has, fun hmax => ?_⟩
  have := hsound.sized.bound
  rw [hm] at this
  exact this hmax

/-- A carriage return comes alone, and its newline after a timeout. -/
theorem reader_serves_split : ∃ as sn net',
    runCalls [.getline, .getline, .read 5 (by decide), .getline]
      (.attach (fun _ => 'x') 1048576) [.data ['2', '\r'], .stop, .data ['\n', 'a', 'b'], .eof] = some (as, sn, net') ∧
    SNET.Answered [.getline, .getline, .read 5 (by decide), .getline] ['2', '\r', '\n', 'a', 'b'] as (sn.text net') ∧
    ((1048576 : Nat) ≠ 0 → sn.rbuflen < 1048576 + snetBuflen ∨ sn.rbuflen = snetBuflen) :=
  reader_serves _ _ _ _ ⟨rfl, trivial⟩

/-- The lines of a connection do not depend on how its bytes arrive: `n` calls
return the first `n` lines of the text, and `NULL` where there are no more. -/
theorem reader_lines (rbuf : Nat → Char) (max n : Nat) (net : Net) (h : net.Ended) (hst : net.Steady)
    (hlong : max ≠ 0 → ∀ l ∈ SNET.ends.linesOf net.bytes, l.length < max) :
    ∃ sn net', runCalls (List.replicate n .getline) (.attach rbuf max) net =
      some ((List.range n).map ((SNET.ends.linesOf net.bytes)[·]?), sn, net') := by
  have := SNET.getlines_spec n (SNET.attach_sound rbuf max h) (.inl hst) (by rwa [SNET.attach_text])
  rwa [SNET.attach_text] at this

theorem reader_lines_split : ∃ sn net',
    runCalls [.getline, .getline, .getline] (.attach (fun _ => 'x') 0) [.data ['2', '\r'], .data ['\n', 'a'], .eof] =
      some ([some ['2'], some ['a'], none], sn, net') := by
  have hlines : SNET.ends.linesOf ['2', '\r', '\n', 'a'] = [['2'], ['a']] := by
    rw [SNET.ends.linesOf_some (l := ['2']) (r := ['a']) (by decide),
      SNET.ends.linesOf_some (l := ['a']) (r := []) (by decide), LineEnds.linesOf_nil]
  have := reader_lines (fun _ => 'x') 0 3 [.data ['2', '\r'], .data ['\n', 'a'], .eof] ⟨rfl, trivial⟩ (by decide)
    fun h => absurd rfl h
  rw [show Net.bytes [.data ['2', '\r'], .data ['\n', 'a'], .eof] = ['2', '\r', '\n', 'a'] from rfl, hlines] at this
  exact this

end Cosign
