import Cosign.Daemon.Publish
/-!
# The ticket after the record

What the client sends after the reply 300 decides how a `LOGIN` with
`kerberos` ends, and until then only the ticket's own file changes.
-/

namespace Cosign

open Lib

/-- The reads deliver the rest of the ticket: `len` characters from round `i`
on, each piece written. -/
def Delivers (env : Env) : (i len : Nat) → List (Option Str) → Prop
  | _, 0, _ => True
  | _, _ + 1, [] => False
  | _, _ + 1, none :: _ => False
  | i, len + 1, some d :: rest =>
    let d := d.take (min (len + 1) 8192)
    d ≠ [] ∧ env.fails .write i = false ∧ Delivers env (i + 1) (len + 1 - d.length) rest

/-- The whole ticket arrives in a new file `k`, and the client's last line is
`line`. -/
structure Arrives (env : Env) (s : Store) (k line : Str) : Prop where
  made : env.fails .creat 0 = false ∧ s.get k = none ∧ s.hasDir k = true
  data : ∃ sizebuf, env.size = some sizebuf ∧ Delivers env 0 (atoi sizebuf % 2 ^ 32).toNat env.reads
  closed : env.fails .close 0 = false
  last : env.lines.head? = some line

/-- Every other file is the same. -/
def SameBut (k : Str) (s t : Store) : Prop := ∀ p, resolve p ≠ resolve k → t.get p = s.get p

theorem SameBut.refl (k : Str) (s : Store) : SameBut k s s := fun _ _ => rfl

theorem SameBut.trans {k : Str} {s t u : Store} (h : SameBut k s t) (h' : SameBut k t u) : SameBut k s u :=
  fun p hp => (h' p hp).trans (h p hp)

theorem sameBut_exec {o : FsOp} {k : Str} (h : ∀ q ∈ o.targets, q = resolve k) (s : Store) :
    SameBut k s (exec o s).2 := fun _ hp => exec_frame o s fun hm => hp (h _ hm)

theorem run_recvTicket (env : Env) (k : Str) (reads : List (Option Str)) (i len : Nat) (s : Store) :
    ∃ r t, Prog.run exec (recvTicket env k i len reads) s = some (r, t) ∧ SameBut k s t ∧
      (r = .done ↔ Delivers env i len reads) := by
  induction reads generalizing i len s with
  | nil => cases len <;> exact ⟨_, s, rfl, SameBut.refl k s, by simp [Delivers]⟩
  | cons x rest ih =>
    cases len with
    | zero => exact ⟨.done, s, rfl, SameBut.refl k s, by simp [Delivers]⟩
    | succ len =>
      cases x with
      | none => exact ⟨_, _, rfl, sameBut_exec (by simp [FsOp.targets]) s, by simp [Delivers]⟩
      | some d =>
        rw [recvTicket, Delivers]
        by_cases hd : d.take (min (len + 1) 8192) = []
        · exact ⟨.broken, s, by simp [hd], SameBut.refl k s, by simp [hd]⟩
        · by_cases hw : env.fails .write i = true
          · exact ⟨.unwritten, s, by simp [hd, hw], SameBut.refl k s, by simp [hw]⟩
          · obtain ⟨r, t, hr, hst, hdone⟩ := ih (i + 1) (len + 1 - (d.take (min (len + 1) 8192)).length)
              (exec (.append k (d.take (min (len + 1) 8192)) env.now) s).2
            refine ⟨r, t, ?_, (sameBut_exec (by simp [FsOp.targets]) s).trans hst, ?_⟩
            · simp only [hd, hw, if_false, Bool.false_eq_true, Prog.run_bind, run_fsAppend, Option.bind_some]
              exact hr
            · rw [hdone]
              simp [hd, hw]

/-! ## How it ends -/

/-- Nothing for the pusher, and no reply that says the login is stored. -/
def Done.Broken (d : Done) : Prop := d.push = [] ∧ ∀ c, d.answers c → 300 ≤ c

theorem transferBroken_broken : transferBroken.Broken := by
  simp [Done.Broken, Done.answers, transferBroken, sendFile, Reply.code?]

theorem transferUnwritten_broken (env : Env) (k : Str) : (transferUnwritten env k).Broken := by
  simp [Done.Broken, Done.answers, transferUnwritten, sendFile, Reply.code?]
  omega

theorem transferMismatch_broken : transferMismatch.Broken := by
  simp [Done.Broken, Done.answers, transferMismatch, sendFile, Reply.code?]
  omega

/-- Until the ticket has arrived, a transfer can only give up. -/
theorem loginReceive_arrives (ses : Session) (env : Env) (av : List Str) (k : Str) (s : Store) :
    (∃ u, SameBut k s u ∧ (∀ line, env.lines.head? = some line → Arrives env s k line) ∧
        Prog.run exec (loginReceive ses env av k) s =
          Prog.run exec (loginLast ses env (env.overwritten.getD av) k) u) ∨
      (∀ line, ¬ Arrives env s k line) ∧
        ∃ d t, Prog.run exec (loginReceive ses env av k) s = some (d, t) ∧ SameBut k s t ∧ d.Broken := by
  have hcreat : (∃ u, Prog.run exec (failing (env.fails .creat 0) false (fsCreat k env.now)) s = some (true, u) ∧
        SameBut k s u ∧ env.fails .creat 0 = false ∧ s.get k = none ∧ s.hasDir k = true) ∨
      Prog.run exec (failing (env.fails .creat 0) false (fsCreat k env.now)) s = some (false, s) ∧
        ¬ (env.fails .creat 0 = false ∧ s.get k = none ∧ s.hasDir k = true) := by
    have hput : ∀ f, SameBut k s (s.put k f) := fun f p hp => Store.put_get_ne s hp f
    rw [run_failing, run_fsCreat]
    simp only [exec]
    cases env.fails .creat 0 <;> cases s.get k <;> cases s.hasDir k <;> simp [hput]
  rcases hcreat with ⟨u, hu, hsu, hmade⟩ | ⟨hu, hmade⟩
  · simp only [loginReceive, Prog.run_bind, hu, Option.bind_some]
    cases hsize : env.size with
    | none =>
      refine .inr ⟨fun line ha => ?_, _, u, rfl, hsu, transferBroken_broken⟩
      obtain ⟨sizebuf, hsome, -⟩ := ha.data
      rw [hsize] at hsome
      cases hsome
    | some sizebuf =>
      obtain ⟨r, t, hr, hut, hdone⟩ := run_recvTicket env k env.reads 0 (atoi sizebuf % 2 ^ 32).toNat u
      have hdata : ∀ line, Arrives env s k line → r = .done := by
        intro line ha
        obtain ⟨sizebuf', hsome, hdel⟩ := ha.data
        rw [hsize] at hsome
        cases hsome
        exact hdone.2 hdel
      simp only [Bool.true_eq_false, if_false, Prog.run_bind, hr, Option.bind_some]
      cases r with
      | broken => exact .inr ⟨fun line ha => (by cases hdata line ha), _, t, rfl, hsu.trans hut, transferBroken_broken⟩
      | unwritten =>
        exact .inr ⟨fun line ha => (by cases hdata line ha), _, t, rfl, hsu.trans hut, transferUnwritten_broken env k⟩
      | done =>
        dsimp only
        cases hclose : env.fails .close 0 with
        | true =>
          refine .inr ⟨fun line ha => ?_, _, t, rfl, hsu.trans hut, transferUnwritten_broken env k⟩
          have := ha.closed
          rw [hclose] at this
          cases this
        | false => exact .inl ⟨t, hsu.trans hut, fun _ hl => ⟨hmade, ⟨sizebuf, hsize, hdone.1 rfl⟩, hclose, hl⟩, rfl⟩
  · refine .inr ⟨fun line ha => hmade ha.made, _, s, ?_, SameBut.refl k s, transferBroken_broken⟩
    simp only [loginReceive, Prog.run_bind, hu, Option.bind_some]
    rfl

/-- The three ends of a transfer. -/
theorem loginReceive_cases {ses : Session} {env : Env} {av : List Str} {k : Str} {s t : Store} {d : Done}
    (h : Prog.run exec (loginReceive ses env av k) s = some (d, t)) :
    (Arrives env s k ".".toList ∧ SameBut k s t ∧ d = transferDone ses (env.overwritten.getD av)) ∨
      (∃ line u, line ≠ ".".toList ∧ Arrives env s k line ∧ SameBut k s u ∧ d = transferMismatch ∧
        t = (exec (.unlink ((env.overwritten.getD av).getD 1 [])) (exec (.unlink k) u).2).2) ∨
      ((∀ line, ¬ Arrives env s k line) ∧ SameBut k s t ∧ d.Broken) := by
  rcases loginReceive_arrives ses env av k s with ⟨u, hsu, harr, hrun⟩ | ⟨hn, d', t', hrun, hst, hd⟩
  · rw [hrun] at h
    unfold loginLast at h
    cases hlines : env.lines with
    | nil =>
      rw [hlines] at h
      cases h
      refine .inr (.inr ⟨fun line ha => ?_, hsu, transferBroken_broken⟩)
      have := ha.last
      rw [hlines] at this
      cases this
    | cons line rest =>
      rw [hlines] at h harr
      have ha := harr line rfl
      by_cases hl : line = ".".toList
      · simp only [hl, ne_eq, not_true_eq_false, if_false] at h
        cases h
        exact .inl ⟨hl ▸ ha, hsu, rfl⟩
      · simp only [hl, ne_eq, not_false_eq_true, if_true] at h
        cases h
        exact .inr (.inl ⟨line, u, hl, ha, hsu, rfl, rfl⟩)
  · rw [hrun] at h
    cases h
    exact .inr (.inr ⟨hn, hst, hd⟩)

theorem loginAnswer_ticket {ses : Session} {env : Env} {av : List Str} {a : LoginArgs} {k : Str}
    (hk : a.krbpath = some k) : loginAnswer ses env av a false = loginReceive ses env av k := by
  simp [loginAnswer, hk]

theorem loginAnswer_stored {ses : Session} {env : Env} {av : List Str} {a : LoginArgs} {already : Bool} {s t : Store}
    {d : Done} (hk : ¬ ∃ k, a.krbpath = some k ∧ already = false)
    (h : Prog.run exec (loginAnswer ses env av a already) s = some (d, t)) :
    t = s ∧ d = loginStored ses a := by
  unfold loginAnswer at h
  split at h
  · rename_i k hk' 
    exact absurd ⟨k, hk', rfl⟩ hk
  · cases h; exact ⟨rfl, rfl⟩

end Cosign
