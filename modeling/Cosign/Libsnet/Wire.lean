import Cosign.Libsnet.Writef
/-!
# From one end of a connection to the other

`snet_write` goes on until all bytes are taken or a try fails. What one end
writes in lines, the other end reads in the same lines, whatever pieces the two
networks make of them.
-/

namespace Cosign

open Lib

/-- How a try to write ends, after the `select` for it. -/
inductive Sending where
  | wrote (n : Nat)
  /-- `EAGAIN`, or what TLS wants first. -/
  | again
  /-- An error, or the time is up. -/
  | failed

/-- The loop of `snet_write`: what it returns, and what has been sent. -/
def snetWriteLoop : List Sending → (buf : Str) → (rlen : Nat) → Option Nat × Str
  | _, [], rlen => (some rlen, [])
  | [], _ :: _, _ => (none, [])
  | .failed :: _, _ :: _, _ => (none, [])
  | .again :: tries, c :: buf, rlen => snetWriteLoop tries (c :: buf) rlen
  | .wrote n :: tries, c :: buf, rlen =>
    let rc := min n (c :: buf).length
    let x := snetWriteLoop tries ((c :: buf).drop rc) (rlen + rc)
    (x.1, (c :: buf).take rc ++ x.2)

/-- `snet_write`. Without a time limit it is one try, which may take less than all. -/
def snetWrite (timed : Bool) (tries : List Sending) (buf : Str) : Option Nat × Str :=
  if timed then snetWriteLoop tries buf 0
  else
    match tries with
    | .wrote n :: _ => (some (min n buf.length), buf.take n)
    | _ => (none, [])

/-- What has been sent is the first part of the bytes, all of them where the
loop comes to its end. -/
theorem snetWriteLoop_spec (tries : List Sending) (buf : Str) (rlen : Nat) :
    (snetWriteLoop tries buf rlen).2 <+: buf ∧
      ∀ r, (snetWriteLoop tries buf rlen).1 = some r → (snetWriteLoop tries buf rlen).2 = buf ∧ r = rlen + buf.length := by
  induction tries, buf, rlen using snetWriteLoop.induct with
  | case1 tries rlen => simp [snetWriteLoop]
  | case2 c buf rlen => simp [snetWriteLoop]
  | case3 tries c buf rlen => simp [snetWriteLoop]
  | case4 tries c buf rlen ih => simpa only [snetWriteLoop] using ih
  | case5 n tries c buf rlen rc ih =>
    simp only [snetWriteLoop]
    have hsplit : (c :: buf).take rc ++ (c :: buf).drop rc = c :: buf := List.take_append_drop rc _
    have hlen : rc ≤ (c :: buf).length := min_le_right _ _
    refine ⟨?_, fun r hr => ?_⟩
    · have := (List.prefix_append_right_inj ((c :: buf).take rc)).2 ih.1
      rwa [hsplit] at this
    · obtain ⟨hsent, hr'⟩ := ih.2 r hr
      refine ⟨?_, ?_⟩
      · exact (congrArg _ hsent).trans hsplit
      · rw [List.length_drop] at hr'; omega

theorem snetWrite_spec (timed : Bool) (tries : List Sending) (buf : Str) :
    (snetWrite timed tries buf).2 <+: buf ∧
      ((snetWrite timed tries buf).1 = some buf.length → (snetWrite timed tries buf).2 = buf) := by
  unfold snetWrite
  split
  · obtain ⟨hpre, hall⟩ := snetWriteLoop_spec tries buf 0
    exact ⟨hpre, fun h => (hall _ h).1⟩
  · split
    · refine ⟨List.take_prefix _ _, fun h => ?_⟩
      have := Option.some.inj h
      exact List.take_of_length_le (by omega)
    · exact ⟨List.nil_prefix, by simp⟩

/-! ## Lines -/

/-- A call of `snet_writef`, and how its tries end. -/
structure Writing where
  fmt : Str
  args : List FArg
  timed : Bool
  tries : List Sending

/-- The message is the line `l`. -/
def Writing.Line (m : Writing) (l : Str) : Prop :=
  (∃ ps, formatted none m.fmt m.args = some ps ∧ textOfPieces ps = l ++ ['\r', '\n']) ∧ ∀ c ∈ l, ¬ SNET.ends.isEnd c

/-- Messages one after another, up to the first that is not sent whole. What is
returned is whether all were, and what has been sent. -/
def sendAll : List Writing → Wbuf → Option (Bool × Str)
  | [], _ => some (true, [])
  | m :: ms, w =>
    (snetWriteftv w m.fmt m.args).bind fun x =>
      let sent := snetWrite m.timed m.tries x.1
      if sent.1 = some x.1.length then (sendAll ms x.2).map fun y => (y.1, sent.2 ++ y.2)
      else some (false, sent.2)

theorem sendAll_prefix {ms : List Writing} {ls : List Str} (h : List.Forall₂ Writing.Line ms ls) {w : Wbuf}
    (hw : snetBuflen ∣ w.wbuflen) {ok : Bool} {sent : Str} (hrun : sendAll ms w = some (ok, sent)) :
    sent <+: SNET.ends.written '\r' ls ∧ (ok = true → sent = SNET.ends.written '\r' ls) := by
  induction h generalizing w ok sent with
  | nil =>
    cases hrun
    exact ⟨List.nil_prefix, fun _ => rfl⟩
  | @cons m l ms ls hm _ ih =>
    obtain ⟨ps, hps, htext⟩ := hm.1
    have hwritten : SNET.ends.written '\r' (l :: ls) = textOfPieces ps ++ SNET.ends.written '\r' ls := by
      rw [htext]; rfl
    rw [sendAll] at hrun
    cases hx : snetWriteftv w m.fmt m.args with
    | none => rw [hx] at hrun; cases hrun
    | some x =>
      obtain ⟨htx, hsize⟩ := writeftv_iff w hw m.fmt m.args
      have hx1 : x.1 = textOfPieces ps := by
        rw [hx, hps] at htx
        simp only [Option.map_some, Option.bind_some] at htx
        split at htx
        · exact Option.some.inj htx
        · cases htx
      obtain ⟨hpre, hall⟩ := snetWrite_spec m.timed m.tries x.1
      rw [hx, Option.bind_some] at hrun
      simp only [] at hrun
      rw [hwritten, ← hx1]
      split at hrun
      · rename_i hsent
        obtain ⟨y, hy, heq⟩ := Option.map_eq_some_iff.1 hrun
        cases heq
        obtain ⟨hpre', hall'⟩ := ih (hsize _ _ hx).1 hy
        rw [hall hsent]
        exact ⟨(List.prefix_append_right_inj _).2 hpre', fun hok => congrArg _ (hall' hok)⟩
      · cases hrun
        exact ⟨hpre.trans (List.prefix_append _ _), fun hok => absurd hok Bool.false_ne_true⟩

/-- What one end writes in lines the other end reads in the same lines, up to
where the connection breaks off, and there at most a part of the next. Nothing
is lost where nothing broke off. -/
theorem wire_lines {ms : List Writing} {ls : List Str} (hms : List.Forall₂ Writing.Line ms ls) {w : Wbuf}
    (hw : snetBuflen ∣ w.wbuflen) {ok : Bool} {sent : Str} (hrun : sendAll ms w = some (ok, sent))
    {net : Net} (hend : net.Ended) (hst : net.Steady) (hnet : net.bytes <+: sent)
    (rbuf : Nat → Char) (max n : Nat) (hmax : max ≠ 0 → ∀ l ∈ ls, l.length < max) :
    ∃ k cut sn net',
      runCalls (List.replicate n .getline) (.attach rbuf max) net =
        some ((List.range n).map ((ls.take k ++ cut)[·]?), sn, net') ∧
      (cut = [] ∨ ∃ p l, cut = [p] ∧ p ≠ [] ∧ ls[k]? = some l ∧ p <+: l) ∧
      (ok = true → net.bytes = sent → ls.take k ++ cut = ls) := by
  have hclean : ∀ l ∈ ls, ∀ c ∈ l, ¬ SNET.ends.isEnd c := by
    intro l hl
    obtain ⟨i, hi, rfl⟩ := List.getElem_of_mem hl
    have hlen : i < ms.length := by rw [hms.length_eq]; exact hi
    exact ((List.forall₂_iff_get.1 hms).2 i hlen hi).2
  have hcr : SNET.ends.cr '\r' = true := rfl
  obtain ⟨hpre, hall⟩ := sendAll_prefix hms hw hrun
  obtain ⟨k, cut, hlines, hcut⟩ := SNET.ends.linesOf_prefix hcr hclean (hnet.trans hpre)
  have hshort : max ≠ 0 → ∀ l ∈ SNET.ends.linesOf net.bytes, l.length < max := by
    intro hne l hl
    rw [hlines] at hl
    rcases List.mem_append.1 hl with hl | hl
    · exact hmax hne l (List.mem_of_mem_take hl)
    · rcases hcut with rfl | ⟨p, l', rfl, _, hget, hp⟩
      · cases hl
      · rw [List.mem_singleton.1 hl]
        exact lt_of_le_of_lt hp.length_le (hmax hne l' (List.mem_of_getElem? hget))
  obtain ⟨sn, net', hread⟩ := SNET.getlines_spec n (SNET.attach_sound rbuf max hend) (.inl hst)
    (by rwa [SNET.attach_text])
  rw [SNET.attach_text, hlines] at hread
  refine ⟨k, cut, sn, net', hread, hcut, fun hok hb => ?_⟩
  rw [← hlines, hb, hall hok]
  exact SNET.ends.linesOf_written hcr hclean

theorem wire_lines_two : ∃ k cut sn net',
    runCalls [.getline, .getline, .getline] (.attach (fun _ => 'x') 1048576)
        [.data "231 ip".toList, .data "\r".toList, .data "\n.\r".toList, .eof] =
      some ((List.range 3).map (([['2', '3', '1', ' ', 'i', 'p'], ['.']].take k ++ cut)[·]?), sn, net') ∧
    (cut = [] ∨ ∃ p l, cut = [p] ∧ p ≠ [] ∧ [['2', '3', '1', ' ', 'i', 'p'], ['.']][k]? = some l ∧ p <+: l) ∧
    (false = true → "231 ip\r\n.\r".toList = "231 ip\r\n.\r".toList →
      [['2', '3', '1', ' ', 'i', 'p'], ['.']].take k ++ cut = [['2', '3', '1', ' ', 'i', 'p'], ['.']]) := by
  have hline : ∀ (m : Writing) (l : Str), (formatted none m.fmt m.args).map textOfPieces = some (l ++ ['\r', '\n']) →
      (∀ c ∈ l, ¬ SNET.ends.isEnd c) → m.Line l := fun m l hf hc => ⟨Option.map_eq_some_iff.1 hf, hc⟩
  have hrun : sendAll [⟨"%d %s\r\n".toList, [.num .int 231, .str ['i', 'p']], true, [.again, .wrote 3, .wrote 10]⟩,
        ⟨".\r\n".toList, [], true, [.wrote 2, .failed]⟩] ⟨fun _ => nul, 4096, 0⟩ =
      some (false, "231 ip\r\n.\r".toList) := by decide +kernel
  have hend : Net.Ended [.data "231 ip".toList, .data "\r".toList, .data "\n.\r".toList, .eof] := ⟨rfl, trivial⟩
  exact wire_lines (.cons (hline _ ['2', '3', '1', ' ', 'i', 'p'] (by decide +kernel) (by simp [LineEnds.isEnd, SNET.ends, isEol]))
    (.cons (hline _ ['.'] (by decide +kernel) (by simp [LineEnds.isEnd, SNET.ends, isEol])) .nil)) (by decide) hrun hend (by simp [Net.Steady])
    (List.prefix_refl _) _ _ 3 (by simp)

end Cosign
