import Cosign.Daemon.Transfer
/-!
# The loop that receives a ticket

`len` and `rc` of `f_login` are `unsigned`, and so is the -1 of a failed
`snet_read` once it is in `rc`. `ticketRounds` is the loop over these machine
words; `recvTicket` ends as it does.
-/

namespace Cosign

open Lib

/-- One time through the loop that comes to its `write`. `data` is what the
read returned, `none` for -1, and `rc` the count given to `write`. -/
structure Round where
  len : UInt32
  rc : UInt32
  data : Option Str

def ticketRounds (env : Env) : (i : Nat) → (len : UInt32) → List (Option Str) → List Round × Transfer
  | _, len, [] => ([], if len = 0 then .done else .broken)
  | i, len, read :: rest =>
    if len = 0 then ([], .done)
    else
      let data := read.map fun d => d.take (min len.toNat 8192)
      let rc : UInt32 := match data with
        | none => 0xFFFFFFFF
        | some d => UInt32.ofNat d.length
      if rc ≤ 0 then ([], .broken)
      -- no `write` takes as many as 4294967295 characters
      else if data = none ∨ env.fails .write i then ([⟨len, rc, data⟩], .unwritten)
      else
        let (rounds, r) := ticketRounds env (i + 1) (len - rc) rest
        (⟨len, rc, data⟩ :: rounds, r)

/-- The characters written. -/
def written (rounds : List Round) : Nat := (rounds.map fun r => r.rc.toNat).sum

/-- What is written is what was read, and `len` can be brought down by it. -/
structure Round.Exact (r : Round) : Prop where
  data : ∃ d, r.data = some d ∧ r.rc.toNat = d.length ∧ 1 ≤ d.length ∧ d.length ≤ 8192
  len : r.rc ≤ r.len

theorem take_lt (d : Str) (len : UInt32) : (d.take (min len.toNat 8192)).length < 2 ^ 32 := by
  have := List.length_take_le (min len.toNat 8192) d
  omega

/-- The five ways a round goes. -/
inductive RoundCase (env : Env) (i : Nat) (len : UInt32) (rest : List (Option Str)) :
    Option Str → List Round × Transfer → Prop
  | complete {read} : len = 0 → RoundCase env i len rest read ([], .done)
  | failed : len ≠ 0 → RoundCase env i len rest none ([⟨len, 0xFFFFFFFF, none⟩], .unwritten)
  | eof {d} : len ≠ 0 → d.take (min len.toNat 8192) = [] → RoundCase env i len rest (some d) ([], .broken)
  | full {d r} : r.Exact → r.len = len → len ≠ 0 → d.take (min len.toNat 8192) ≠ [] → env.fails .write i = true →
      RoundCase env i len rest (some d) ([r], .unwritten)
  | next {d r} : r.Exact → r.len = len → len ≠ 0 → d.take (min len.toNat 8192) ≠ [] → env.fails .write i = false →
      r.rc.toNat = (d.take (min len.toNat 8192)).length →
      RoundCase env i len rest (some d)
        (r :: (ticketRounds env (i + 1) (len - r.rc) rest).1, (ticketRounds env (i + 1) (len - r.rc) rest).2)

theorem ticketRounds_cons (env : Env) (i : Nat) (len : UInt32) (read : Option Str) (rest : List (Option Str)) :
    RoundCase env i len rest read (ticketRounds env i len (read :: rest)) := by
  by_cases hlen : len = 0
  · rw [ticketRounds, if_pos hlen]
    exact .complete hlen
  rw [ticketRounds, if_neg hlen]
  cases read with
  | none => exact .failed hlen
  | some d =>
    simp only [Option.map_some]
    have hlt := take_lt d len
    have hle := List.length_take_le (min len.toNat 8192) d
    generalize hd : d.take (min len.toNat 8192) = data at hlt hle
    have hrc : (UInt32.ofNat data.length).toNat = data.length := UInt32.toNat_ofNat_of_lt' hlt
    by_cases hnil : data = []
    · subst hnil
      exact .eof hlen hd
    have hpos : 0 < data.length := List.length_pos_iff.2 hnil
    have hnot : ¬ UInt32.ofNat data.length ≤ 0 := by
      rw [UInt32.le_iff_toNat_le, hrc]
      exact Nat.not_le.2 hpos
    rw [if_neg hnot]
    have hexact : Round.Exact ⟨len, UInt32.ofNat data.length, some data⟩ :=
      ⟨⟨data, rfl, hrc, hpos, by omega⟩, by dsimp only; rw [UInt32.le_iff_toNat_le, hrc]; omega⟩
    by_cases hw : env.fails .write i = true
    · rw [if_pos (.inr hw)]
      exact .full hexact rfl hlen (hd ▸ hnil) hw
    · rw [if_neg (by simp [hw])]
      exact .next hexact rfl hlen (hd ▸ hnil) (by simpa using hw) (by rw [hd]; exact hrc)

/-! ## Whole uploads -/

theorem toNat_succ {len : UInt32} (h : len ≠ 0) : ∃ n, len.toNat = n + 1 :=
  Nat.exists_eq_succ_of_ne_zero fun h0 => h (UInt32.toNat_inj.1 h0)

theorem sub_rc {r : Round} {len : UInt32} (h : r.Exact) (hlen : r.len = len) :
    (len - r.rc).toNat = len.toNat - r.rc.toNat := UInt32.toNat_sub_of_le _ _ (hlen ▸ h.len)

/-- `recvTicket` ends as the loop over machine words. -/
theorem recvTicket_ends (env : Env) (k : Str) (reads : List (Option Str)) (i : Nat) (len : UInt32) :
    Prog.Returns (fun r => r = (ticketRounds env i len reads).2) (recvTicket env k i len.toNat reads) := by
  induction reads generalizing i len with
  | nil =>
    rw [ticketRounds]
    by_cases hlen : len = 0
    · subst hlen; rfl
    · obtain ⟨n, hn⟩ := toNat_succ hlen
      rw [hn, if_neg hlen]
      rfl
  | cons read rest ih =>
    have hcase := ticketRounds_cons env i len read rest
    generalize ticketRounds env i len (read :: rest) = run at hcase
    cases hcase with
    | complete hlen => subst hlen; rfl
    | failed hlen =>
      obtain ⟨n, hn⟩ := toNat_succ hlen
      rw [hn]
      exact Prog.returns_bind _ fun _ => rfl
    | eof hlen hd =>
      obtain ⟨n, hn⟩ := toNat_succ hlen
      rw [hn] at hd ⊢
      rw [recvTicket, if_pos hd]
      rfl
    | full _ _ hlen hd hw =>
      obtain ⟨n, hn⟩ := toNat_succ hlen
      rw [hn] at hd ⊢
      rw [recvTicket, if_neg hd, if_pos hw]
      rfl
    | @next d r hexact hr hlen hd hw hrc =>
      have hih := ih (i + 1) (len - r.rc)
      rw [sub_rc hexact hr, hrc] at hih
      obtain ⟨n, hn⟩ := toNat_succ hlen
      rw [hn] at hd hih ⊢
      rw [recvTicket, if_neg hd, if_neg (by simp [hw])]
      exact Prog.returns_bind _ fun _ => hih

end Cosign
