import Cosign.Filter.Cookiefs
import Cosign.Filter.Choose
import Cosign.Filter.Factors
/-!
# Whether the cookie check comes to an end

`cosign_cookie_valid` goes back to `retry` when it cannot link its new record,
as another process may just have made it. Whatever else keeps the link from
being made keeps the loop going, as long as the record still cannot be opened
and a server still knows the cookie.
-/

namespace Cosign.Filter

open Lib

/-! ## More rounds -/

section Rounds
variable {m n : Nat}

theorem within_proxyLines (h : m ≤ n) (server : Nat) (got : List Str) :
    (proxyLines server m got).Within (proxyLines server n got) := by
  induction m generalizing n got with
  | zero => trivial
  | succ m ih =>
    obtain ⟨n, rfl⟩ : ∃ k, n = k + 1 := ⟨n - 1, by omega⟩
    unfold proxyLines
    refine Prog.Within.after _ fun r => ?_
    cases r with
    | none => exact .refl _
    | some line => exact .ite (.refl _) (.ite (ih (by omega) _) (.refl _))

theorem within_netretrProxy (h : m ≤ n) (cfg : HostConfig) (scookie : Str) (conn : Conn) :
    (netretrProxy m cfg scookie conn).Within (netretrProxy n cfg scookie conn) := by
  unfold netretrProxy
  refine Prog.Within.after _ fun _ => .ite (.refl _) (.ite (.refl _) ?_)
  refine Prog.Within.after _ fun _ => .ite (.refl _) ?_
  refine Prog.Within.after _ fun _ => .ite (.refl _) ?_
  exact (within_proxyLines h _ _).bind fun _ => .refl _

theorem within_ticketBytes (h : m ≤ n) (server : Nat) (path : Str) (size : Nat) :
    (ticketBytes server path m size).Within (ticketBytes server path n size) := by
  induction m generalizing n size with
  | zero =>
    cases size with
    | zero => rw [ticketBytes, ticketBytes]; exact .refl _
    | succ size => trivial
  | succ m ih =>
    obtain ⟨n, rfl⟩ : ∃ k, n = k + 1 := ⟨n - 1, by omega⟩
    cases size with
    | zero => exact .refl _
    | succ size =>
      unfold ticketBytes
      refine Prog.Within.after _ fun r => ?_
      cases r with
      | none => exact .refl _
      | some data =>
        refine .ite (.refl _) (Prog.Within.after _ fun _ => .ite (.refl _) ?_)
        exact ih (by omega) _

theorem within_netretrTicket (h : m ≤ n) (cfg : HostConfig) (scookie : Str) (conn : Conn) (si : Sinfo) :
    (netretrTicket m cfg scookie conn si).Within (netretrTicket n cfg scookie conn si) := by
  unfold netretrTicket
  refine Prog.Within.after _ fun _ => .ite (.refl _) (Prog.Within.after _ fun line => ?_)
  cases line with
  | none => exact .refl _
  | some line =>
    dsimp only
    split
    · refine Prog.Within.after _ fun rand => ?_
      cases mkcookie 16 rand with
      | none => exact .refl _
      | some name =>
        refine .ite (.refl _) (Prog.Within.after _ fun size => ?_)
        cases size with
        | none => exact .refl _
        | some size =>
          refine Prog.Within.after _ fun _ => .ite (.refl _) ?_
          exact (within_ticketBytes h _ _ _).bind fun _ => .refl _
    · exact .refl _
    · exact .refl _
    · exact .refl _

theorem within_checkDone (h : m ≤ n) (cfg : HostConfig) (scookie : Str) (first : Bool) (rc : Rc) (si : Sinfo)
    (rekey : Rekey) (conn : Conn) (others : List Conn) :
    (checkDone m cfg scookie first rc si rekey conn others).Within
      (checkDone n cfg scookie first rc si rekey conn others) := by
  unfold checkDone
  refine .ite (.refl _) ?_
  have htail : ∀ si : Sinfo, Prog.Within
      (if (first && cfg.krbtkt) = true then
        netretrTicket m cfg ((rekey.bind id).getD scookie) conn si >>= fun x =>
          (pure ⟨.ok, x.2, rekey, conn :: others⟩ : FProg Checked)
      else pure ⟨.ok, si, rekey, conn :: others⟩)
      (if (first && cfg.krbtkt) = true then
        netretrTicket n cfg ((rekey.bind id).getD scookie) conn si >>= fun x =>
          (pure ⟨.ok, x.2, rekey, conn :: others⟩ : FProg Checked)
      else pure ⟨.ok, si, rekey, conn :: others⟩) := fun si =>
    .ite ((within_netretrTicket h _ _ _ _).bind fun _ => .refl _) (.refl _)
  exact .ite ((within_netretrProxy h _ _ _).bind fun _ => htail si) (htail si)

theorem within_checkCookie (h : m ≤ n) (cfg : HostConfig) (scookie : Str) (rekey : Rekey) (si : Sinfo) (first : Bool)
    (cl : List Conn) :
    (checkCookie m cfg scookie rekey si first cl).Within (checkCookie n cfg scookie rekey si first cl) := by
  rw [checkCookie_choose, checkCookie_choose]
  exact Pool.choose_within _ _ _ _ (fun _ _ _ _ _ _ => within_checkDone h _ _ _ _ _ _ _ _) _ _

theorem within_storeCookie (cfg : HostConfig) (path : Str) (newfile : Bool) (v : Valid) {again again' : Str → FProg Valid}
    (h : ∀ path, (again path).Within (again' path)) :
    (storeCookie cfg path newfile v again).Within (storeCookie cfg path newfile v again') := by
  unfold storeCookie
  cases storePath cfg path v.rekey with
  | none => exact .refl _
  | some path' =>
    refine Prog.Within.after _ fun _ => .ite (.refl _) (.ite (.refl _) ?_)
    exact Prog.Within.after _ fun _ => .ite (.refl _) (h _)

theorem within_netcheck (h : m ≤ n) (cfg : HostConfig) (cookie ipaddr path : Str) (newfile : Bool) (lsi : Sinfo)
    (rekey : Rekey) (si : Sinfo) (cl : List Conn) {again again' : Str → Valid → FProg Valid}
    (hagain : ∀ path v, (again path v).Within (again' path v)) :
    (netcheck m cfg cookie ipaddr path newfile lsi rekey si cl again).Within
      (netcheck n cfg cookie ipaddr path newfile lsi rekey si cl again') := by
  unfold netcheck
  refine (within_checkCookie h _ _ _ _ _ _).bind fun c => .ite (.refl _) (.ite (.refl _) (.ite ?_ (.ite (.refl _) ?_)))
  · exact .ite (.refl _) (.ite (.refl _) (.ite (within_storeCookie _ _ _ _ fun _ => hagain _ _) (.refl _)))
  · exact within_storeCookie _ _ _ _ fun _ => hagain _ _

theorem within_retry (h : m ≤ n) (cfg : HostConfig) (cookie ipaddr : Str) (tv : Nat) (path : Str) (v : Valid) :
    (retry cfg cookie ipaddr tv m path v).Within (retry cfg cookie ipaddr tv n path v) := by
  induction m generalizing n path v with
  | zero => trivial
  | succ m ih =>
    obtain ⟨n, rfl⟩ : ∃ k, n = k + 1 := ⟨n - 1, by omega⟩
    have hmn : m ≤ n := by omega
    unfold retry
    refine Prog.Within.after _ fun file => Prog.Within.after _ fun r => ?_
    obtain ⟨newfile, lsi⟩ := r
    refine .ite (.refl _) (.ite ?_ (within_netcheck hmn _ _ _ _ _ _ _ _ _ fun _ _ => ih hmn _ _))
    rcases cached cfg ipaddr v.si lsi with ⟨si, _ | si'⟩
    · exact within_netcheck hmn _ _ _ _ _ _ _ _ _ fun _ _ => ih hmn _ _
    · exact .refl _

end Rounds

/-! ## One round of the loop -/

section Loop
variable {σ : Type} (exec : (o : FilterOp) → σ → FilterAns o × σ) (cfg : HostConfig) (cookie ipaddr : Str)

/-- What the loop goes on with, at `retry`. -/
structure Head (σ : Type) where
  path : Str
  v : Valid
  s : σ

/-- The address of the answer is the browser's where that is asked for. -/
def sameAddr (si : Sinfo) : Prop := cfg.checkip = .never ∨ ipaddr = si.ipaddr

/-- A round that ends in a jump back: the record cannot be opened, a server
knows the cookie, the temporary file is made, and the link fails. -/
structure Barred (h h' : Head σ) : Prop where
  missing : (exec (.read h.path) h.s).1 = .missing
  known : ∃ n c s, Prog.run exec (checkCookie n cfg cookie h.v.rekey h.v.si true h.v.cl) (exec (.read h.path) h.s).2 =
    some (c, s) ∧ c.rc = .ok ∧ sameAddr cfg ipaddr c.si ∧ storePath cfg h.path c.rekey = some h'.path ∧
    (exec (.mktmp cfg.filterdb) s).1 = true ∧
    (exec (.link h'.path (recordText c.si)) (exec (.mktmp cfg.filterdb) s).2).1 = false ∧
    h'.v = ⟨c.rc, c.rekey, c.si, c.cl⟩ ∧ h'.s = (exec (.link h'.path (recordText c.si)) (exec (.mktmp cfg.filterdb) s).2).2

/-- Every exchange with the servers comes to an end. -/
def Completes : Prop := ∀ rekey si first cl s,
  ∃ n x, Prog.run exec (checkCookie n cfg cookie rekey si first cl) s = some x

variable {exec cfg cookie ipaddr}

theorem readLines_rc {lines : List Str} {si lsi : Sinfo} {newfile : Int} (h : readLines lines si = some (newfile, lsi)) :
    newfile < 0 ∨ newfile = 0 := by
  induction lines generalizing si with
  | nil =>
    cases h
    exact .inr rfl
  | cons line rest ih =>
    simp only [readLines, Option.bind_eq_bind, Option.bind_eq_some_iff] at h
    obtain ⟨⟨rc, si'⟩, -, h⟩ := h
    dsimp only at h
    split at h
    · cases h
      exact .inl (by decide)
    · exact ih h

theorem readScookie_cases {f : Opened} {newfile : Int} {lsi : Sinfo} (h : readScookie f = some (newfile, lsi)) :
    newfile < 0 ∨ newfile = 0 ∨ f = .missing ∧ newfile = 1 := by
  cases f with
  | missing =>
    cases h
    exact .inr (.inr ⟨rfl, rfl⟩)
  | failed =>
    cases h
    exact .inl (by decide)
  | file text mtime => exact (readLines_rc h).imp id .inl

variable (exec cfg) in
/-- A record that was there is replaced, and that is the end. -/
theorem storeCookie_old (path : Str) (v : Valid) (s : σ) :
    ∃ y, ∀ again, Prog.run exec (storeCookie cfg path false v again) s = some y := by
  unfold storeCookie
  cases storePath cfg path v.rekey with
  | none => exact ⟨_, fun _ => rfl⟩
  | some path' =>
    dsimp only
    simp only [Prog.run_bind, fCall, Prog.run_call, Option.bind_some]
    cases (exec (.mktmp cfg.filterdb) s).1 with
    | true => exact ⟨_, fun _ => rfl⟩
    | false => exact ⟨_, fun _ => rfl⟩

variable (exec cfg) in
/-- A new record is linked, or else the loop goes round. -/
theorem storeCookie_new (path : Str) (v : Valid) (s : σ) :
    (∃ y, ∀ again, Prog.run exec (storeCookie cfg path true v again) s = some y) ∨
    ∃ path', storePath cfg path v.rekey = some path' ∧ (exec (.mktmp cfg.filterdb) s).1 = true ∧
      (exec (.link path' (recordText v.si)) (exec (.mktmp cfg.filterdb) s).2).1 = false ∧
      ∀ again, Prog.run exec (storeCookie cfg path true v again) s =
        Prog.run exec (again path') (exec (.link path' (recordText v.si)) (exec (.mktmp cfg.filterdb) s).2).2 := by
  unfold storeCookie
  cases hpath : storePath cfg path v.rekey with
  | none => exact .inl ⟨_, fun _ => rfl⟩
  | some path' =>
    dsimp only
    cases htmp : (exec (.mktmp cfg.filterdb) s).1 with
    | false =>
      simp only [Prog.run_bind, fCall, Prog.run_call, Option.bind_some, htmp]
      exact .inl ⟨_, fun _ => rfl⟩
    | true =>
      have hrun : ∀ again : Str → FProg Valid, Prog.run exec (fCall (.mktmp cfg.filterdb) >>= fun ok =>
          if (!ok) = true then pure { v with rc := .error }
          else fCall (.link path' (recordText v.si)) >>= fun ok =>
            if ok = true then pure { v with rc := .ok } else again path') s =
          Prog.run exec (if (exec (.link path' (recordText v.si)) (exec (.mktmp cfg.filterdb) s).2).1 = true
            then pure { v with rc := .ok } else again path')
            (exec (.link path' (recordText v.si)) (exec (.mktmp cfg.filterdb) s).2).2 := by
        intro again
        rw [run_fCall, htmp]
        rfl
      cases hlink : (exec (.link path' (recordText v.si)) (exec (.mktmp cfg.filterdb) s).2).1 with
      | true =>
        exact .inl ⟨_, fun again => (hrun again).trans (by rw [hlink]; rfl)⟩
      | false =>
        refine .inr ⟨path', rfl, rfl, hlink, fun again => (hrun again).trans ?_⟩
        rw [hlink]
        rfl

variable (ipaddr) in
/-- After an answer for a record that is there, the function returns. -/
theorem netcheck_old {n : Nat} (path : Str) (lsi : Sinfo) {si : Sinfo} {rekey : Rekey} {cl : List Conn} {s : σ} {x : Checked × σ}
    (h : Prog.run exec (checkCookie n cfg cookie rekey si false cl) s = some x) :
    ∃ y, ∀ again, Prog.run exec (netcheck n cfg cookie ipaddr path false lsi rekey si cl again) s = some y := by
  obtain ⟨c, t⟩ := x
  unfold netcheck
  simp only [Prog.run_bind, h, Option.bind_some]
  by_cases hrc : c.rc ≠ .ok
  · exact ⟨_, fun _ => by rw [if_pos hrc]; rfl⟩
  simp only [if_neg hrc]
  by_cases haddr : cfg.checkip = .always ∧ ipaddr ≠ c.si.ipaddr
  · exact ⟨_, fun _ => by rw [if_pos haddr]; rfl⟩
  simp only [if_neg haddr, Bool.not_false, if_true]
  by_cases huser : c.si.user ≠ lsi.user
  · exact ⟨_, fun _ => by rw [if_pos huser]; rfl⟩
  simp only [if_neg huser]
  by_cases hrealm : c.si.realm ≠ lsi.realm
  · exact ⟨_, fun _ => by rw [if_pos hrealm]; rfl⟩
  simp only [if_neg hrealm]
  split
  · obtain ⟨y, hy⟩ := storeCookie_old exec cfg path _ t
    exact ⟨y, fun again => hy _⟩
  · exact ⟨_, fun _ => rfl⟩

variable (ipaddr) in
/-- After an answer for a new one, it returns or goes round. -/
theorem netcheck_new {n : Nat} (path : Str) (lsi : Sinfo) {si : Sinfo} {rekey : Rekey} {cl : List Conn} {s : σ} {c : Checked} {t : σ}
    (h : Prog.run exec (checkCookie n cfg cookie rekey si true cl) s = some (c, t)) :
    (∃ y, ∀ again, Prog.run exec (netcheck n cfg cookie ipaddr path true lsi rekey si cl again) s = some y) ∨
    (c.rc = .ok ∧ sameAddr cfg ipaddr c.si ∧ ∃ path', storePath cfg path c.rekey = some path' ∧
      (exec (.mktmp cfg.filterdb) t).1 = true ∧
      (exec (.link path' (recordText c.si)) (exec (.mktmp cfg.filterdb) t).2).1 = false ∧
      ∀ again, Prog.run exec (netcheck n cfg cookie ipaddr path true lsi rekey si cl again) s =
        Prog.run exec (again path' ⟨c.rc, c.rekey, c.si, c.cl⟩)
          (exec (.link path' (recordText c.si)) (exec (.mktmp cfg.filterdb) t).2).2) := by
  unfold netcheck
  simp only [Prog.run_bind, h, Option.bind_some]
  by_cases hrc : c.rc ≠ .ok
  · exact .inl ⟨_, fun _ => by rw [if_pos hrc]; rfl⟩
  simp only [if_neg hrc]
  by_cases haddr : cfg.checkip = .always ∧ ipaddr ≠ c.si.ipaddr
  · exact .inl ⟨_, fun _ => by rw [if_pos haddr]; rfl⟩
  simp only [if_neg haddr, Bool.not_true, Bool.false_eq_true, if_false]
  by_cases hfirst : cfg.checkip = .initial ∧ ipaddr ≠ c.si.ipaddr
  · exact .inl ⟨_, fun _ => by rw [if_pos hfirst]; rfl⟩
  simp only [if_neg hfirst]
  have hsame : sameAddr cfg ipaddr c.si := by
    unfold sameAddr
    cases hc : cfg.checkip with
    | never => exact .inl rfl
    | initial => exact .inr (by simpa [hc] using hfirst)
    | always => exact .inr (by simpa [hc] using haddr)
  rcases storeCookie_new exec cfg path ⟨c.rc, c.rekey, c.si, c.cl⟩ t with ⟨y, hy⟩ | ⟨path', hstore⟩
  · exact .inl ⟨y, fun again => hy _⟩
  · obtain ⟨hpath, htmp, hlink, hagain⟩ := hstore
    exact .inr ⟨not_not.1 hrc, hsame, path', hpath, htmp, hlink, fun again => hagain _⟩

/-! ## The rounds together -/

theorem netcheck_none {n : Nat} {path : Str} {newfile : Bool} {lsi si : Sinfo} {rekey : Rekey} {cl : List Conn} {s : σ}
    (h : Prog.run exec (checkCookie n cfg cookie rekey si newfile cl) s = none) (again : Str → Valid → FProg Valid) :
    Prog.run exec (netcheck n cfg cookie ipaddr path newfile lsi rekey si cl again) s = none := by
  unfold netcheck
  rw [Prog.run_bind, h]
  rfl

variable (exec cfg cookie ipaddr) in
/-- What the function does from a head on. -/
def runFrom (tv n : Nat) (h : Head σ) : Option (Valid × σ) :=
  Prog.run exec (retry cfg cookie ipaddr tv n h.path h.v) h.s

theorem runFrom_mono {tv m n : Nat} {h : Head σ} {y : Valid × σ} (hmn : m ≤ n)
    (hm : runFrom exec cfg cookie ipaddr tv m h = some y) : runFrom exec cfg cookie ipaddr tv n h = some y :=
  (within_retry hmn _ _ _ _ _ _).run hm

theorem runFrom_missing {tv n : Nat} {h : Head σ} (hread : (exec (.read h.path) h.s).1 = .missing) :
    runFrom exec cfg cookie ipaddr tv (n + 1) h = Prog.run exec (netcheck n cfg cookie ipaddr h.path true .zero h.v.rekey
      h.v.si h.v.cl (retry cfg cookie ipaddr tv n)) (exec (.read h.path) h.s).2 := by
  unfold runFrom retry
  rw [run_fCall, hread]
  rfl

theorem netcheck_barred {n : Nat} {path path' : Str} {lsi si : Sinfo} {rekey : Rekey} {cl : List Conn} {s : σ}
    {c : Checked} {t : σ} (h : Prog.run exec (checkCookie n cfg cookie rekey si true cl) s = some (c, t))
    (hrc : c.rc = .ok) (hsame : sameAddr cfg ipaddr c.si) (hpath : storePath cfg path c.rekey = some path')
    (htmp : (exec (.mktmp cfg.filterdb) t).1 = true)
    (hlink : (exec (.link path' (recordText c.si)) (exec (.mktmp cfg.filterdb) t).2).1 = false)
    (again : Str → Valid → FProg Valid) :
    Prog.run exec (netcheck n cfg cookie ipaddr path true lsi rekey si cl again) s =
      Prog.run exec (again path' ⟨c.rc, c.rekey, c.si, c.cl⟩)
        (exec (.link path' (recordText c.si)) (exec (.mktmp cfg.filterdb) t).2).2 := by
  have haddr : ¬ (cfg.checkip = .always ∧ ipaddr ≠ c.si.ipaddr) := by
    rintro ⟨hc, hne⟩
    rcases hsame with hn | heq
    · rw [hc] at hn
      cases hn
    · exact hne heq
  have hfirst : ¬ (cfg.checkip = .initial ∧ ipaddr ≠ c.si.ipaddr) := by
    rintro ⟨hc, hne⟩
    rcases hsame with hn | heq
    · rw [hc] at hn
      cases hn
    · exact hne heq
  unfold netcheck storeCookie
  simp only [Prog.run_bind, h, Option.bind_some, if_neg haddr, if_neg hfirst, hrc, hpath]
  simp [fCall, htmp, hlink]

/-- A barred round is followed by the next. -/
theorem barred_runFrom {h h' : Head σ} (hb : Barred exec cfg cookie ipaddr h h') (tv : Nat) :
    (∀ n y, runFrom exec cfg cookie ipaddr tv (n + 1) h = some y → runFrom exec cfg cookie ipaddr tv n h' = some y) ∧
    ∃ N, ∀ n, N ≤ n → runFrom exec cfg cookie ipaddr tv (n + 1) h = runFrom exec cfg cookie ipaddr tv n h' := by
  obtain ⟨N, c, t, hknown, hrc, hsame, hpath, htmp, hlink, hv, hs⟩ := hb.known
  have hgo : ∀ n, Prog.run exec (checkCookie n cfg cookie h.v.rekey h.v.si true h.v.cl) (exec (.read h.path) h.s).2 =
      some (c, t) → runFrom exec cfg cookie ipaddr tv (n + 1) h = runFrom exec cfg cookie ipaddr tv n h' := by
    intro n hn
    rw [runFrom_missing hb.missing, netcheck_barred hn hrc hsame hpath htmp hlink, runFrom, hv, hs]
  constructor
  · intro n y hy
    cases hn : Prog.run exec (checkCookie n cfg cookie h.v.rekey h.v.si true h.v.cl) (exec (.read h.path) h.s).2 with
    | none =>
      rw [runFrom_missing hb.missing, netcheck_none hn] at hy
      cases hy
    | some x =>
      -- with the rounds of either, the answer is one
      have hx := (within_checkCookie (Nat.le_max_left n N) _ _ _ _ _ _).run hn
      have hc := (within_checkCookie (Nat.le_max_right n N) _ _ _ _ _ _).run hknown
      obtain rfl : x = (c, t) := Option.some_inj.1 (hx.symm.trans hc)
      rw [← hgo n hn, hy]
  · exact ⟨N, fun n hle => hgo n ((within_checkCookie hle _ _ _ _ _ _).run hknown)⟩

variable (ipaddr) in
/-- A round overflows, is the last, or is barred. -/
theorem round_cases (hc : Completes exec cfg cookie) (tv : Nat) (h : Head σ) :
    readScookie (exec (.read h.path) h.s).1 = none ∨ (∃ n y, runFrom exec cfg cookie ipaddr tv n h = some y) ∨
    ∃ h', Barred exec cfg cookie ipaddr h h' := by
  cases hread : readScookie (exec (.read h.path) h.s).1 with
  | none => exact .inl rfl
  | some r =>
    refine .inr ?_
    obtain ⟨newfile, lsi⟩ := r
    have hrun : ∀ n, runFrom exec cfg cookie ipaddr tv (n + 1) h = Prog.run exec
        (if newfile < 0 then pure { h.v with rc := .error }
        else if newfile = 0 ∧ fresh tv lsi then
          (cached cfg ipaddr h.v.si lsi).2.elim
            (netcheck n cfg cookie ipaddr h.path false (recordLeft cfg ipaddr lsi) h.v.rekey
              (cached cfg ipaddr h.v.si lsi).1 h.v.cl (retry cfg cookie ipaddr tv n))
            fun si => pure { h.v with rc := .ok, si }
        else netcheck n cfg cookie ipaddr h.path (newfile ≠ 0) lsi h.v.rekey h.v.si h.v.cl (retry cfg cookie ipaddr tv n))
        (exec (.read h.path) h.s).2 := by
      intro n
      unfold runFrom retry
      rw [run_fCall, hread]
      change Prog.run exec (ite _ _ (ite _ _ _)) _ = _
      cases cached cfg ipaddr h.v.si lsi with
      | mk si used => cases used <;> rfl
    have hold : ∀ lsi si, ∃ n y, Prog.run exec (netcheck n cfg cookie ipaddr h.path false lsi h.v.rekey si h.v.cl
        (retry cfg cookie ipaddr tv n)) (exec (.read h.path) h.s).2 = some y := by
      intro lsi si
      obtain ⟨n, x, hx⟩ := hc h.v.rekey si false h.v.cl (exec (.read h.path) h.s).2
      obtain ⟨y, hy⟩ := netcheck_old ipaddr h.path lsi hx
      exact ⟨n, y, hy _⟩
    rcases readScookie_cases hread with hneg | rfl | ⟨hmissing, rfl⟩
    · exact .inl ⟨1, _, by rw [hrun, if_pos hneg]; rfl⟩
    · left
      by_cases hyoung : fresh tv lsi = true
      · cases hcached : cached cfg ipaddr h.v.si lsi with
        | mk si used =>
          cases used with
          | some si' => exact ⟨1, _, by rw [hrun, if_neg (by decide), if_pos ⟨rfl, hyoung⟩, hcached]; rfl⟩
          | none =>
            obtain ⟨n, y, hy⟩ := hold _ si
            exact ⟨n + 1, y, by rw [hrun, if_neg (by decide), if_pos ⟨rfl, hyoung⟩, hcached]; exact hy⟩
      · obtain ⟨n, y, hy⟩ := hold lsi h.v.si
        exact ⟨n + 1, y, by rw [hrun, if_neg (by decide), if_neg fun h => hyoung h.2]; exact hy⟩
    · obtain ⟨n, ⟨c, t⟩, hx⟩ := hc h.v.rekey h.v.si true h.v.cl (exec (.read h.path) h.s).2
      rcases netcheck_new ipaddr h.path .zero hx with
        ⟨y, hy⟩ | ⟨hrc, hsame, path', hpath, htmp, hlink, -⟩
      · exact .inl ⟨n + 1, y, by rw [runFrom_missing hmissing]; exact hy _⟩
      · exact .inr ⟨⟨path', ⟨c.rc, c.rekey, c.si, c.cl⟩,
          (exec (.link path' (recordText c.si)) (exec (.mktmp cfg.filterdb) t).2).2⟩, hmissing, n, c, t, hx, hrc, hsame, hpath, htmp, hlink, rfl, rfl⟩

variable (exec cfg cookie ipaddr) in
/-- The heads that so many barred rounds lead to. -/
inductive Chain : Nat → Head σ → Head σ → Prop
  | here (h : Head σ) : Chain 0 h h
  | next {n : Nat} {h h₁ h' : Head σ} : Barred exec cfg cookie ipaddr h h₁ → Chain n h₁ h' → Chain (n + 1) h h'

variable (exec cfg cookie ipaddr) in
/-- Round after round is barred. -/
def Starves (h : Head σ) : Prop := ∀ n, ∃ h', Chain exec cfg cookie ipaddr n h h'

variable (exec cfg cookie ipaddr) in
/-- Some round reads a record with a line that is too long for its field. -/
def Overflows (h : Head σ) : Prop :=
  ∃ n h', Chain exec cfg cookie ipaddr n h h' ∧ readScookie (exec (.read h'.path) h'.s).1 = none

theorem chain_short {tv n : Nat} {h : Head σ} {y : Valid × σ} (hy : runFrom exec cfg cookie ipaddr tv n h = some y)
    (h' : Head σ) : ¬ Chain exec cfg cookie ipaddr n h h' := by
  induction n generalizing h with
  | zero => cases hy
  | succ n ih =>
    intro hchain
    cases hchain with
    | next hb htail => exact ih ((barred_runFrom hb tv).1 n y hy) htail

theorem chain_reads {tv n m : Nat} {h h' : Head σ} {y : Valid × σ} (hchain : Chain exec cfg cookie ipaddr m h h')
    (hy : runFrom exec cfg cookie ipaddr tv n h = some y) : readScookie (exec (.read h'.path) h'.s).1 ≠ none := by
  induction hchain generalizing n with
  | here h =>
    cases n with
    | zero => cases hy
    | succ n =>
      intro hread
      unfold runFrom retry at hy
      rw [run_fCall, hread] at hy
      cases hy
  | next hb _ ih =>
    cases n with
    | zero => cases hy
    | succ n => exact ih ((barred_runFrom hb tv).1 n y hy)

/-- From a head on, the function returns unless it is barred for ever or reads
past a field. -/
theorem runFrom_iff (hc : Completes exec cfg cookie) (tv : Nat) (h : Head σ) :
    (∃ n y, runFrom exec cfg cookie ipaddr tv n h = some y) ↔
      ¬ Starves exec cfg cookie ipaddr h ∧ ¬ Overflows exec cfg cookie ipaddr h := by
  constructor
  · rintro ⟨n, y, hy⟩
    constructor
    · intro hs
      obtain ⟨h', hchain⟩ := hs n
      exact chain_short hy h' hchain
    · rintro ⟨m, h', hchain, hread⟩
      exact chain_reads hchain hy hread
  · rintro ⟨hs, ho⟩
    obtain ⟨n, hn⟩ := not_forall.1 hs
    clear hs
    induction n generalizing h with
    | zero => exact absurd ⟨h, .here h⟩ hn
    | succ n ih =>
      rcases round_cases ipaddr hc tv h with hread | hdone | ⟨h₁, hb⟩
      · exact absurd ⟨0, h, .here h, hread⟩ ho
      · exact hdone
      · have hn₁ : ¬ ∃ h', Chain exec cfg cookie ipaddr n h₁ h' := fun ⟨h', hchain⟩ => hn ⟨h', .next hb hchain⟩
        have ho₁ : ¬ Overflows exec cfg cookie ipaddr h₁ := fun ⟨m, h', hchain, hread⟩ => ho ⟨m + 1, h', .next hb hchain, hread⟩
        obtain ⟨m, y, hy⟩ := ih h₁ ho₁ hn₁
        obtain ⟨N, hN⟩ := (barred_runFrom hb tv).2
        refine ⟨max m N + 1, y, ?_⟩
        rw [hN _ (Nat.le_max_right m N)]
        exact runFrom_mono (Nat.le_max_left m N) hy

/-! ## The whole function -/

variable (exec cfg cookie) in
/-- What it comes to `retry` with, if it does, and when. -/
def start (rekey : Rekey) (cl : List Conn) (s : σ) : Option (Nat × Head σ) :=
  if !(exec (.access cfg.filterdb) s).1 then none
  else match mkcookiepath (some cfg.filterdb) cfg.hashlen cookie maxPathLen with
    | none => none
    | some path => (exec .gettimeofday (exec (.access cfg.filterdb) s).2).1.map fun tv =>
      (tv, ⟨path, ⟨.error, rekey, .zero, cl⟩, (exec .gettimeofday (exec (.access cfg.filterdb) s).2).2⟩)

variable (exec cfg cookie ipaddr) in
/-- With enough rounds the function returns. -/
def Concludes (rekey : Rekey) (cl : List Conn) (s : σ) : Prop :=
  ∃ rounds x, Prog.run exec (cookieValid rounds cfg cookie rekey ipaddr cl) s = some x

theorem cookieValid_start (rounds : Nat) (rekey : Rekey) (cl : List Conn) (s : σ) :
    Prog.run exec (cookieValid rounds cfg cookie rekey ipaddr cl) s = match start exec cfg cookie rekey cl s with
      | some (tv, h) => runFrom exec cfg cookie ipaddr tv rounds h
      | none => some (⟨.error, rekey, .zero, cl⟩, if !(exec (.access cfg.filterdb) s).1 then (exec (.access cfg.filterdb) s).2
        else match mkcookiepath (some cfg.filterdb) cfg.hashlen cookie maxPathLen with
          | none => (exec (.access cfg.filterdb) s).2
          | some _ => (exec .gettimeofday (exec (.access cfg.filterdb) s).2).2) := by
  unfold cookieValid start
  rw [run_fCall]
  cases (exec (.access cfg.filterdb) s).1 with
  | false => rfl
  | true =>
    cases mkcookiepath (some cfg.filterdb) cfg.hashlen cookie maxPathLen with
    | none => rfl
    | some path =>
      simp only [Bool.not_true, Bool.false_eq_true, if_false, Prog.run_bind, fCall, Prog.run_call, Option.bind_some]
      cases (exec .gettimeofday (exec (.access cfg.filterdb) s).2).1 with
      | none => rfl
      | some tv => rfl

/-- The cookie check returns, unless in every round a server knows the cookie
and its record can be neither opened nor linked. -/
theorem cookie_valid_ends_iff (hc : Completes exec cfg cookie) (rekey : Rekey) (cl : List Conn) (s : σ) :
    Concludes exec cfg cookie ipaddr rekey cl s ↔ ∀ tv h, start exec cfg cookie rekey cl s = some (tv, h) →
      ¬ Starves exec cfg cookie ipaddr h ∧ ¬ Overflows exec cfg cookie ipaddr h := by
  unfold Concludes
  simp only [cookieValid_start]
  cases hstart : start exec cfg cookie rekey cl s with
  | none => exact ⟨(fun _ _ _ heq => by cases heq), fun _ => ⟨0, _, rfl⟩⟩
  | some r =>
    obtain ⟨tv, h⟩ := r
    constructor
    · rintro hends _ _ ⟨⟩
      exact (runFrom_iff hc tv h).1 hends
    · exact fun hno => (runFrom_iff hc tv h).2 (hno tv h rfl)

end Loop

/-! ## A full disk -/

/-- Where neither tickets nor proxy cookies are fetched, every exchange is a line
each way. -/
theorem completes_plain {σ : Type} (exec : (o : FilterOp) → σ → FilterAns o × σ) {cfg : HostConfig} (cookie : Str)
    (hproxy : cfg.proxy = false) (hkrb : cfg.krbtkt = false) : Completes exec cfg cookie := by
  intro rekey si first cl s
  refine ⟨0, ?_⟩
  rw [checkCookie_choose]
  apply Prog.Safe.run
  apply Pool.choose_safe
  · have hquestion : ∀ conn st, (question cfg cookie conn st).Safe := by
      intro conn st
      unfold question
      refine .ite trivial (Prog.Safe.bind ?_ fun x => .ite (fun _ => trivial) trivial)
      unfold netcheckCookie
      intro ok
      refine .ite trivial fun line => ?_
      cases line <;> trivial
    intro again conn st
    exact .ite (fun _ => hquestion _ _) (hquestion _ _)
  · intro log rc st conn front back
    unfold settle checkDone
    rw [hproxy, hkrb, Bool.and_false]
    exact .ite trivial trivial
  · exact fun _ _ _ => trivial

/-- A temporary file can still be made, but no directory takes another name. -/
def fullDisk : (o : FilterOp) → Unit → FilterAns o × Unit
  | .access _, s => (true, s)
  | .gettimeofday, s => (some 100, s)
  | .read _, s => (.missing, s)
  | .mktmp _, s => (true, s)
  | .rename .., s => (false, s)
  | .link .., s => (false, s)
  | .utime _, s => ((), s)
  | .connect _, s => (none, s)
  | .close _, s => (true, s)
  | .writef .., s => (true, s)
  | .getline _, s => (none, s)
  | .getlineMulti _, s => (some "231 10.0.0.1 ann umich".toList, s)
  | .snetRead .., s => (none, s)
  | .random, s => (none, s)
  | .linkProxy .., s => (false, s)
  | .openTkt _, s => (false, s)
  | .writeTkt .., s => (false, s)
  | .closeTkt _, s => (false, s)
  | .unlinkTkt _, s => ((), s)

def diskFilter : HostConfig := { otpFilter with reqfv := [], suffix := none }

/-- The state of the loop when no rekeying is asked for. -/
def diskHead (path : Str) (rc : Rc) (si : Sinfo) : Head Unit := ⟨path, ⟨rc, none, si, [otpConn]⟩, ()⟩

theorem disk_barred (cookie ipaddr path : Str) (rc : Rc) (si : Sinfo) :
    ∃ si', Barred fullDisk diskFilter cookie ipaddr (diskHead path rc si) (diskHead path .ok si') := by
  refine ⟨_, rfl, 0, ⟨.ok, _, none, [otpConn]⟩, (), rfl, rfl, .inl rfl, rfl, rfl, rfl, rfl, rfl⟩

theorem disk_starves (cookie ipaddr path : Str) (rc : Rc) (si : Sinfo) :
    Starves fullDisk diskFilter cookie ipaddr (diskHead path rc si) := by
  intro n
  induction n generalizing rc si with
  | zero => exact ⟨_, .here _⟩
  | succ n ih =>
    obtain ⟨si', hb⟩ := disk_barred cookie ipaddr path rc si
    obtain ⟨h', hchain⟩ := ih .ok si'
    exact ⟨h', .next hb hchain⟩

def diskCookie : Str := "cosign-wiki=xyz".toList

theorem disk_path : mkcookiepath (some diskFilter.filterdb) diskFilter.hashlen diskCookie maxPathLen =
    some "/f/cosign-wiki=xyz".toList := by decide

theorem disk_start : start fullDisk diskFilter diskCookie none [otpConn] () =
    some (100, diskHead "/f/cosign-wiki=xyz".toList .error .zero) := by
  simp only [start, disk_path]
  rfl

/-- The same, with room for one more name. -/
def roomyDisk : (o : FilterOp) → Unit → FilterAns o × Unit
  | .link .., s => (true, s)
  | o, s => fullDisk o s

theorem roomy_not_barred (cookie ipaddr : Str) (h h' : Head Unit) : ¬ Barred roomyDisk diskFilter cookie ipaddr h h' := by
  rintro ⟨-, n, c, s, -, -, -, -, -, hlink, -⟩
  cases hlink

/-- On a full disk it does not return, and with room for the record it does. -/
theorem cookie_valid_ends_disk : ¬ Concludes fullDisk diskFilter diskCookie "10.0.0.1".toList none [otpConn] () ∧
    Concludes roomyDisk diskFilter diskCookie "10.0.0.1".toList none [otpConn] () := by
  constructor
  · intro hends
    have hno := (cookie_valid_ends_iff (completes_plain fullDisk diskCookie rfl rfl) none [otpConn] ()).1 hends _ _ disk_start
    exact hno.1 (disk_starves _ _ _ _ _)
  · refine (cookie_valid_ends_iff (completes_plain roomyDisk diskCookie rfl rfl) none [otpConn] ()).2 fun tv h _ => ⟨?_, ?_⟩
    · intro hs
      obtain ⟨h', hchain⟩ := hs 1
      cases hchain with
      | next hb _ => exact roomy_not_barred _ _ _ _ hb
    · rintro ⟨n, h', -, hread⟩
      cases hread

/-- The check of a cookie that is good goes on for ever. -/
theorem disk_never_ends : ¬ ∀ (σ : Type) (exec : (o : FilterOp) → σ → FilterAns o × σ) (cfg : HostConfig)
    (cookie ipaddr path : Str) (rekey : Rekey) (cl : List Conn) (s : σ), Completes exec cfg cookie →
    mkcookiepath (some cfg.filterdb) cfg.hashlen cookie maxPathLen = some path →
      Concludes exec cfg cookie ipaddr rekey cl s := by
  intro h
  obtain ⟨rounds, x, hx⟩ := h Unit fullDisk diskFilter diskCookie "10.0.0.1".toList _ none [otpConn] ()
    (completes_plain fullDisk diskCookie rfl rfl) disk_path
  rw [cookieValid_start, disk_start] at hx
  obtain ⟨h', hchain⟩ := disk_starves diskCookie "10.0.0.1".toList "/f/cosign-wiki=xyz".toList .error .zero rounds
  exact chain_short hx h' hchain

end Cosign.Filter
