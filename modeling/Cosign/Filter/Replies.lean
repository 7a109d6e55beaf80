import Cosign.Filter.Choose
import Cosign.Filter.Cookiefs
/-!
# What is taken from an answer

`cosign_check_cookie` touches no record, and where it says that the cookie is
good there is a 2xx answer to a `CHECK` or `REKEY` of that cookie behind it.
-/

namespace Cosign.Filter

open Lib

/-! ## Answers -/

def Answer.ipaddr (a : Answer) : Str := (acavParse a.line).getD 1 []
def Answer.user (a : Answer) : Str := (acavParse a.line).getD 2 []
def Answer.realm (a : Answer) : Str := (acavParse a.line).getD 3 []

/-- The name in the answer to a `REKEY`. -/
def Answer.newName (a : Answer) : Str := (acavParse a.line).getD ((acavParse a.line).length - 1) []

def Answer.isRekey (a : Answer) : Bool := hasPrefix "REKEY ".toList a.sent

/-- The factors, as they are kept. -/
def Answer.factor (a : Answer) : Str :=
  unwords (a.realm ::
    ((acavParse a.line).take (if a.isRekey then (acavParse a.line).length - 1 else (acavParse a.line).length)).drop 4)

/-- `netcheck_cookie` accepts the answer to a command that names the cookie. -/
def Accepts (cfg : HostConfig) (cookie : Str) (a : Answer) : Prop :=
  ∃ rekey si si' rekey', a.sent = checkCommand rekey a.conn cookie ∧
    checkLine cfg rekey a.conn si a.line = (.ok, si', rekey')

/-- The answer gives the cookie a new name. -/
def Renames (cookie : Str) (a : Answer) (name : Str) : Prop :=
  a.sent = "REKEY ".toList ++ cookie ∧ a.newName = name

/-- The values are those of the answer. -/
def Says (a : Answer) (si : Sinfo) : Prop := si.ipaddr = a.ipaddr ∧ si.user = a.user ∧ si.realm = a.realm

/-- So are the protocol and the factors. -/
def SaysFactors (a : Answer) (si : Sinfo) : Prop :=
  si.protocol = protoInt a.conn.proto ∧ (supportsFactors si.protocol → si.factor = a.factor)

/-! ## Nothing is written -/

/-- Time goes by and servers answer. -/
structure Quiet (w w' : World) (new : List Answer) : Prop where
  clock : w.clock ≤ w'.clock
  files : w'.files = w.files
  heard : w'.heard = w.heard ++ new
  times : ∀ a ∈ new, w.clock ≤ a.time ∧ a.time ≤ w'.clock

theorem Quiet.refl (w : World) : Quiet w w [] := ⟨Nat.le_refl _, rfl, by simp, by simp⟩

theorem Quiet.trans {w₁ w₂ w₃ : World} {n₁ n₂ : List Answer} (h : Quiet w₁ w₂ n₁) (h' : Quiet w₂ w₃ n₂) :
    Quiet w₁ w₃ (n₁ ++ n₂) := by
  refine ⟨Nat.le_trans h.clock h'.clock, h'.files.trans h.files, ?_, fun a ha => ?_⟩
  · rw [h'.heard, h.heard, List.append_assoc]
  · rcases List.mem_append.1 ha with ha | ha
    · exact ⟨(h.times a ha).1, Nat.le_trans (h.times a ha).2 h'.clock⟩
    · exact ⟨Nat.le_trans h.clock (h'.times a ha).1, (h'.times a ha).2⟩

theorem World.Later.quiet {w w' : World} (h : w.Later w') : Quiet w w' [] :=
  ⟨h.1, h.2.1, by rw [h.2.2.2, List.append_nil], by simp⟩

/-- The operation writes no record. -/
def quietOp : FilterOp → Bool
  | .rename .. | .link .. | .utime _ => false
  | _ => true

theorem filterStep_quiet {o : FilterOp} {w w' : World} {r : FilterAns o} (ho : quietOp o = true)
    (h : filterStep o w r w') : ∃ new, Quiet w w' new := by
  cases o with
  | rename | link | utime => cases ho
  | gettimeofday | read => exact ⟨[], h.1.quiet⟩
  | writef server line => exact ⟨[], h.1, h.2.1, by rw [h.2.2.1, List.append_nil], by simp⟩
  | getlineMulti conn =>
    refine ⟨_, h.1, h.2.1, h.2.2.2.1, fun a ha => ?_⟩
    obtain ⟨line, -, rfl⟩ := Option.map_eq_some_iff.1 (Option.mem_toList.1 ha)
    exact ⟨h.1, Nat.le_refl _⟩
  | access | mktmp | connect | close | getline | snetRead | random | linkProxy | openTkt | writeTkt | closeTkt | unlinkTkt =>
    exact ⟨[], World.Later.quiet h⟩

/-! ## What `checkLine` takes over -/

/-- What `netcheck_cookie` leaves of a good answer. -/
structure Taken (rekey : Rekey) (conn : Conn) (line : Str) (si' : Sinfo) (rekey' : Rekey) : Prop where
  ipaddr : si'.ipaddr = (acavParse line).getD 1 []
  user : si'.user = (acavParse line).getD 2 []
  realm : si'.realm = (acavParse line).getD 3 []
  krb5tkt : si'.krb5tkt = []
  protocol : si'.protocol = protoInt conn.proto
  factor : supportsFactors si'.protocol → si'.factor = unwords ((acavParse line).getD 3 [] ::
    ((acavParse line).take (if rekeys rekey conn then (acavParse line).length - 1 else (acavParse line).length)).drop 4)
  fits : OneLine line → si'.Fits
  rekey : if rekeys rekey conn then rekey' = some (some ((acavParse line).getD ((acavParse line).length - 1) []))
    else rekey' = rekey

theorem acavScan_mem (o : Option Str) (s : Str) : ∀ w ∈ acavScan o s, ∀ c ∈ w, c ∈ s ∨ ∃ v, o = some v ∧ c ∈ v := by
  induction o, s using acavScan.induct with
  | case1 => simp [acavScan]
  | case2 v =>
    intro w hw c hc
    obtain rfl := List.mem_singleton.1 hw
    exact .inr ⟨w, rfl, hc⟩
  | case3 d s hd ih =>
    intro w hw c hc
    rw [acavScan, if_pos hd] at hw
    rcases ih w hw c hc with h | ⟨v, hv, -⟩
    · exact .inl (List.mem_cons_of_mem _ h)
    · cases hv
  | case4 d s hd ih =>
    intro w hw c hc
    rw [acavScan, if_neg hd] at hw
    rcases ih w hw c hc with h | ⟨v, hv, hcv⟩
    · exact .inl (List.mem_cons_of_mem _ h)
    · cases hv
      obtain rfl := List.mem_singleton.1 hcv
      exact .inl List.mem_cons_self
  | case5 v d s hd ih =>
    intro w hw c hc
    rw [acavScan, if_pos hd] at hw
    rcases List.mem_cons.1 hw with rfl | hw
    · exact .inr ⟨w, rfl, hc⟩
    · rcases ih w hw c hc with h | ⟨v', hv', -⟩
      · exact .inl (List.mem_cons_of_mem _ h)
      · cases hv'
  | case6 v d s hd ih =>
    intro w hw c hc
    rw [acavScan, if_neg hd] at hw
    rcases ih w hw c hc with h | ⟨v', hv', hcv⟩
    · exact .inl (List.mem_cons_of_mem _ h)
    · cases hv'
      rcases List.mem_append.1 hcv with h | h
      · exact .inr ⟨v, rfl, h⟩
      · obtain rfl := List.mem_singleton.1 h
        exact .inl List.mem_cons_self

/-- A word of a line is one line. -/
theorem oneLine_word {line w : Str} (hline : OneLine line) (hw : w ∈ acavParse line) : OneLine w := fun c hc => by
  rcases acavScan_mem none line w hw c hc with h | ⟨v, hv, -⟩
  · exact hline c h
  · cases hv

theorem oneLine_nil : OneLine [] := fun _ hc => absurd hc List.not_mem_nil

theorem oneLine_getD {line : Str} (hline : OneLine line) (i : Nat) : OneLine ((acavParse line).getD i []) := by
  rw [List.getD_eq_getElem?_getD]
  cases hw : (acavParse line)[i]? with
  | none => exact oneLine_nil
  | some w => exact oneLine_word hline (List.mem_of_getElem? hw)

theorem OneLine.append {v w : Str} (hv : OneLine v) (hw : OneLine w) : OneLine (v ++ w) := fun c hc =>
  (List.mem_append.1 hc).elim (hv c) (hw c)

theorem catFactors_fits {ws : List Str} (hws : ∀ w ∈ ws, OneLine w) {acc factor : Str} (hacc : OneLine acc)
    (hlen : acc.length < factorSize) (h : catFactors acc ws = (.ok, factor)) : OneLine factor ∧ factor.length < factorSize := by
  induction ws generalizing acc with
  | nil => cases h; exact ⟨hacc, hlen⟩
  | cons w ws ih =>
    rw [catFactors] at h
    split at h
    · cases h
    · rename_i hroom
      refine ih (fun v hv => hws v (List.mem_cons_of_mem _ hv))
        (hacc.append ((hws w List.mem_cons_self).cons (by decide))) ?_ h
      simp only [List.length_append, List.length_cons]
      omega

theorem catFactors_eq {ws : List Str} {acc factor : Str} (h : catFactors acc ws = (.ok, factor)) :
    factor = unwords (acc :: ws) := by
  induction ws generalizing acc with
  | nil => cases h; rfl
  | cons w ws ih =>
    rw [catFactors] at h
    split at h
    · cases h
    · rw [ih h]
      cases ws with
      | nil => rfl
      | cons v ws => simp [unwords]

theorem takeFactors_ok {cfg : HostConfig} {si si' : Sinfo} {w : Str} {ws : List Str}
    (h : takeFactors cfg si w ws = (.ok, si')) :
    ∃ factor, si' = { si with factor } ∧ checkFactors cfg ws cfg.reqfv = 0 ∧ factor = unwords (w :: ws.drop 1) ∧
      (OneLine w → (∀ v ∈ ws, OneLine v) → OneLine factor ∧ factor.length < factorSize) := by
  unfold takeFactors at h
  split at h
  · split at h
    · cases h
    rename_i hreq hw
    cases hcat : catFactors w (ws.drop 1) with
    | mk rc factor =>
      rw [hcat] at h
      cases h
      refine ⟨factor, rfl, hreq, catFactors_eq hcat, fun hw' hws => ?_⟩
      exact catFactors_fits (fun v hv => hws v (List.mem_of_mem_drop hv)) hw' (by omega) hcat
  · cases h
  · cases h

theorem takeName_ok {rekey rekey' : Rekey} {conn : Conn} {si si' : Sinfo} {name : Str}
    (h : takeName rekey conn si name = (.ok, si', rekey')) :
    si' = si ∧ if rekeys rekey conn then rekey' = some (some name) else rekey' = rekey := by
  unfold takeName at h
  split at h
  · split at h
    · cases h
    · cases h
      rename_i hr _
      exact ⟨rfl, by rw [if_pos hr]⟩
  · cases h
    rename_i hr
    exact ⟨rfl, by rw [if_neg hr]⟩

theorem checkWords_ok {cfg : HostConfig} {rekey rekey' : Rekey} {conn : Conn} {si si' : Sinfo} {line : Str}
    (h : checkWords cfg rekey conn si (acavParse line) = (.ok, si', rekey')) : Taken rekey conn line si' rekey' := by
  unfold checkWords at h
  split at h
  · cases h
  split at h
  · cases h
  rename_i hip
  split at h
  · cases h
  rename_i huser
  dsimp only at h
  split at h
  swap
  · rename_i hrc _
    cases h
    exact (hrc rfl).elim
  rename_i si₁ hfactors
  split at h
  · cases h
  rename_i hrealm
  obtain ⟨rfl, hname⟩ := takeName_ok h
  have hw := fun (hl : OneLine line) => oneLine_getD hl
  by_cases hs : supportsFactors conn.proto.toNat
  · rw [if_pos hs] at hfactors
    obtain ⟨factor, rfl, -, hfactor, hfits⟩ := takeFactors_ok hfactors
    refine ⟨rfl, rfl, rfl, rfl, by dsimp only, fun _ => by rw [hfactor, List.drop_drop], fun hl => ?_, hname⟩
    refine ⟨by dsimp only; exact protoInt_bounds conn.proto, ⟨hw hl 1, Nat.not_le.1 hip⟩, ⟨hw hl 2, Nat.not_le.1 huser⟩, ⟨hw hl 3, Nat.not_le.1 hrealm⟩,
      fun _ => hfits (hw hl 3) fun v hv => ?_, ⟨oneLine_nil, by simp [krb5tktSize]⟩⟩
    exact oneLine_word hl (List.mem_of_mem_take (List.mem_of_mem_drop hv))
  · rw [if_neg hs] at hfactors
    obtain ⟨-, rfl⟩ := Prod.mk.inj hfactors
    have hno : ¬ supportsFactors (protoInt conn.proto) := fun hs' => hs (supportsFactors_protoInt hs')
    refine ⟨rfl, rfl, rfl, rfl, by dsimp only, fun hs' => absurd (by dsimp only at hs'; exact hs') hno, fun hl => ?_, hname⟩
    refine ⟨by dsimp only; exact protoInt_bounds conn.proto, ⟨hw hl 1, Nat.not_le.1 hip⟩, ⟨hw hl 2, Nat.not_le.1 huser⟩, ⟨hw hl 3, Nat.not_le.1 hrealm⟩,
      fun hs' => absurd (by dsimp only at hs'; exact hs') hno, ⟨oneLine_nil, by simp [krb5tktSize]⟩⟩

theorem checkLine_ok {cfg : HostConfig} {rekey rekey' : Rekey} {conn : Conn} {si si' : Sinfo} {line : Str}
    (h : checkLine cfg rekey conn si line = (.ok, si', rekey')) : Taken rekey conn line si' rekey' := by
  unfold checkLine at h
  split at h
  · exact checkWords_ok h
  · cases h
  · cases h
  · cases h

/-! ## `cosign_check_cookie` -/

abbrev fwp {α : Type} (p : FProg α) (Q : α → World → Prop) (w : World) : Prop :=
  Prog.wp filterStep (fun _ => True) (fun _ => True) p Q w

theorem fwp_call {α : Type} {o : FilterOp} {f : FilterAns o → FProg α} {Q : α → World → Prop} {w : World}
    (h : ∀ r w', filterStep o w r w' → fwp (f r) Q w') : fwp (fCall o >>= f) Q w :=
  fun r w' hstep _ => ⟨trivial, h r w' hstep⟩

/-- A program that writes no record is quiet, whatever it returns. -/
theorem fwp_quiet {α : Type} {Φ : α → Prop} {p : FProg α} (hp : Prog.Asks (fun o => quietOp o = true) p)
    (hr : Prog.Returns Φ p) (w : World) : fwp p (fun a w' => Φ a ∧ ∃ new, Quiet w w' new) w :=
  Prog.wp_of_asks hp hr (fun _ => trivial)
    (fun o u r u' ho ⟨new, hq⟩ hstep => by
      obtain ⟨new', hq'⟩ := filterStep_quiet ho hstep
      exact ⟨new ++ new', hq.trans hq'⟩)
    ⟨[], Quiet.refl w⟩

/-- What stands behind a good answer of `cosign_check_cookie`. -/
structure Behind (cfg : HostConfig) (cookie : Str) (rekey : Rekey) (w w' : World) (new : List Answer) (c : Checked) :
    Prop where
  answer : ∃ a ∈ new, Accepts cfg cookie a ∧ Says a c.si ∧ SaysFactors a c.si ∧
    (c.rekey = rekey ∨ ∃ name, Renames cookie a name ∧ c.rekey = some (some name))
  fits : c.si.Fits

/-- The post-condition: nothing is written, and a good answer has a reply
behind it. -/
def CheckPost (cfg : HostConfig) (cookie : Str) (rekey : Rekey) (w : World) (c : Checked) (w' : World) : Prop :=
  ∃ new, Quiet w w' new ∧ (c.rekey.isSome = rekey.isSome) ∧ (c.rc ≠ .ok → c.rekey = rekey) ∧
    (c.rc = .ok → Behind cfg cookie rekey w w' new c)

theorem takeName_rekey {rekey : Rekey} {conn : Conn} {si : Sinfo} {name : Str}
    (h : (takeName rekey conn si name).1 ≠ .ok) : (takeName rekey conn si name).2.2 = rekey := by
  unfold takeName at h ⊢
  split
  · split
    · rfl
    · rename_i h₁ h₂
      rw [if_pos h₁, if_neg h₂] at h
      exact absurd rfl h
  · rfl

theorem checkLine_rekey {cfg : HostConfig} {rekey : Rekey} {conn : Conn} {si : Sinfo} {line : Str}
    (h : (checkLine cfg rekey conn si line).1 ≠ .ok) : (checkLine cfg rekey conn si line).2.2 = rekey := by
  unfold checkLine at h ⊢
  split
  · rename_i hline
    rw [hline] at h
    unfold checkWords at h ⊢
    split
    · rfl
    rename_i h₁
    rw [if_neg h₁] at h
    split
    · rfl
    rename_i h₂
    rw [if_neg h₂] at h
    split
    · rfl
    rename_i h₃
    rw [if_neg h₃] at h
    dsimp only at h ⊢
    split
    · rename_i si₁ hf
      rw [hf] at h
      dsimp only at h
      split
      · rfl
      · rename_i h₄
        rw [if_neg h₄] at h
        exact takeName_rekey h
    · rfl
  · rfl
  · rfl
  · rfl

theorem netcheckCookie_spec (cfg : HostConfig) (cookie : Str) (rekey : Rekey) (conn : Conn) (si : Sinfo) (w : World) :
    fwp (netcheckCookie cfg cookie rekey conn si) (fun r w' => ∃ new, Quiet w w' new ∧ (r.1 ≠ .ok → r.2.2 = rekey) ∧
      (r.1 = .ok → ∃ a ∈ new, a.conn = conn ∧ a.sent = checkCommand rekey conn cookie ∧ OneLine a.line ∧
        checkLine cfg rekey conn si a.line = r)) w := by
  unfold netcheckCookie fCall
  rw [fwp, Prog.wp_bind, Prog.wp_call]
  intro ok w₁ hwrite _
  refine ⟨trivial, ?_⟩
  have hq₁ : Quiet w w₁ [] := ⟨hwrite.1, hwrite.2.1, by rw [hwrite.2.2.1, List.append_nil], by simp⟩
  cases ok with
  | false => exact ⟨[], hq₁, fun _ => rfl, fun h => by cases h⟩
  | true =>
    rw [if_neg (by decide), Prog.wp_bind, Prog.wp_call]
    intro r w₂ hread _
    refine ⟨trivial, ?_⟩
    obtain ⟨new, hq₂⟩ := filterStep_quiet (o := .getlineMulti conn) rfl hread
    cases r with
    | none => exact ⟨_, hq₁.trans hq₂, fun _ => rfl, fun h => by cases h⟩
    | some line =>
      refine ⟨_, hq₁.trans hq₂, checkLine_rekey, fun _ => ?_⟩
      have hnew : new = [⟨conn, w₁.sent conn.server, line, w₂.clock⟩] :=
        List.append_cancel_left (hq₂.heard.symm.trans hread.2.2.2.1)
      have hsent : w₁.sent conn.server = checkCommand rekey conn cookie := by
        rw [hwrite.2.2.2, if_pos rfl, Function.update_self]
      refine ⟨_, by rw [hnew]; exact List.mem_cons_self, rfl, hsent, hread.2.2.2.2 line rfl, rfl⟩

/-! ### The retrievals -/

abbrev AsksQuiet {α : Type} (p : FProg α) : Prop := Prog.Asks (fun o => quietOp o = true) p

theorem asks_proxyLines (server n : Nat) (got : List Str) : AsksQuiet (proxyLines server n got) := by
  induction n generalizing got with
  | zero => trivial
  | succ n ih =>
    refine ⟨rfl, fun r => ?_⟩
    cases r with
    | none => trivial
    | some line =>
      refine Prog.asks_ite trivial (Prog.asks_ite (ih _) trivial)

theorem asks_netretrProxy (n : Nat) (cfg : HostConfig) (cookie : Str) (conn : Conn) :
    AsksQuiet (netretrProxy n cfg cookie conn) := by
  refine ⟨rfl, fun ok => Prog.asks_ite trivial (Prog.asks_ite trivial ⟨rfl, fun tv => Prog.asks_ite trivial
    ⟨rfl, fun ok => Prog.asks_ite trivial ?_⟩⟩)⟩
  exact Prog.asks_bind (asks_proxyLines _ _ _) fun r => Prog.asks_ite trivial ⟨rfl, fun ok => trivial⟩

theorem asks_ticketBytes (server : Nat) (path : Str) (n size : Nat) : AsksQuiet (ticketBytes server path n size) := by
  induction n generalizing size with
  | zero =>
    cases size with
    | zero => trivial
    | succ size => trivial
  | succ n ih =>
    cases size with
    | zero => trivial
    | succ size =>
      refine ⟨rfl, fun r => ?_⟩
      cases r with
      | none => trivial
      | some data => exact Prog.asks_ite trivial ⟨rfl, fun ok => Prog.asks_ite trivial (ih _)⟩

/-- `*si` after a retrieval: another ticket file, or none. -/
def Reticketed (si si' : Sinfo) : Prop :=
  ∃ k, si' = { si with krb5tkt := k } ∧ OneLine k ∧ k.length < krb5tktSize

theorem Reticketed.none (si : Sinfo) : Reticketed si { si with krb5tkt := [] } :=
  ⟨[], rfl, oneLine_nil, by simp [krb5tktSize]⟩

theorem oneLine_alphabet {v : Str} (hv : ∀ c ∈ v, c ∈ fbase64Alphabet) : OneLine v := fun c hc =>
  have hall : OneLine fbase64Alphabet := oneLine_of_isOneLine (by decide)
  hall c (hv c hc)

/-- The program writes no record, and what it returns satisfies `Φ`. -/
def Leaves {α : Type} (Φ : α → Prop) (p : FProg α) : Prop := AsksQuiet p ∧ Prog.Returns Φ p

section
variable {α β : Type} {Φ : α → Prop}

theorem Leaves.ret {a : α} (h : Φ a) : Leaves Φ (pure a : FProg α) := ⟨trivial, h⟩

theorem Leaves.call {o : FilterOp} {f : FilterAns o → FProg α} (ho : quietOp o = true) (h : ∀ r, Leaves Φ (f r)) :
    Leaves Φ (fCall o >>= f) :=
  ⟨⟨ho, fun r => (h r).1⟩, fun r => (h r).2⟩

theorem Leaves.bind {p : FProg β} {f : β → FProg α} (hp : AsksQuiet p) (h : ∀ b, Leaves Φ (f b)) : Leaves Φ (p >>= f) :=
  ⟨Prog.asks_bind hp fun b => (h b).1, Prog.returns_bind p fun b => (h b).2⟩

theorem Leaves.seq {Ψ : β → Prop} {p : FProg β} {f : β → FProg α} (hp : Leaves Ψ p) (h : ∀ b, Ψ b → Leaves Φ (f b)) :
    Leaves Φ (p >>= f) := by
  obtain ⟨hasks, hret⟩ := hp
  induction p with
  | ret b => exact h b hret
  | undef => exact ⟨trivial, trivial⟩
  | ask o k ih => exact ⟨⟨hasks.1, fun r => (ih r (hasks.2 r) (hret r)).1⟩, fun r => (ih r (hasks.2 r) (hret r)).2⟩

theorem Leaves.ite {c : Prop} [Decidable c] {p q : FProg α} (hp : Leaves Φ p) (hq : Leaves Φ q) :
    Leaves Φ (if c then p else q) := by
  split
  · exact hp
  · exact hq

theorem Leaves.ite_of {c : Prop} [Decidable c] {p q : FProg α} (hp : c → Leaves Φ p) (hq : ¬ c → Leaves Φ q) :
    Leaves Φ (if c then p else q) := by
  by_cases hc : c
  · rw [if_pos hc]
    exact hp hc
  · rw [if_neg hc]
    exact hq hc

theorem Leaves.ite_pos {c : Prop} [Decidable c] (hc : c) {p q : FProg α} (hp : Leaves Φ p) :
    Leaves Φ (if c then p else q) := by
  rw [if_pos hc]
  exact hp

theorem Leaves.ite_neg {c : Prop} [Decidable c] (hc : ¬ c) {p q : FProg α} (hq : Leaves Φ q) :
    Leaves Φ (if c then p else q) := by
  rw [if_neg hc]
  exact hq

end

theorem netretrTicket_leaves (n : Nat) (cfg : HostConfig) (cookie : Str) (conn : Conn) (si : Sinfo) :
    Leaves (fun r => Reticketed si r.2) (netretrTicket n cfg cookie conn si) := by
  have hnone := Reticketed.none si
  have hret : ∀ rc, Leaves (fun r => Reticketed si r.2) (pure (rc, { si with krb5tkt := [] }) : FProg (Rc × Sinfo)) :=
    fun _ => Leaves.ret hnone
  have hfail : ∀ path, Leaves (fun r => Reticketed si r.2) (do
      fCall (.unlinkTkt path)
      return (Rc.error, { si with krb5tkt := [] }) : FProg (Rc × Sinfo)) := fun path => Leaves.call rfl fun _ => hret _
  refine Leaves.call rfl fun ok => Leaves.ite (hret _) (Leaves.call rfl fun r => ?_)
  rcases r with _ | line
  · exact hret _
  dsimp only
  split
  · refine Leaves.call rfl fun rand => ?_
    split
    · exact hret _
    rename_i name hname
    by_cases hlen : (cfg.tktPrefix ++ '/' :: name).length ≥ krb5tktSize
    · exact Leaves.ite_pos hlen (hret _)
    refine Leaves.ite_neg hlen (Leaves.call rfl fun r => ?_)
    rcases r with _ | size
    · exact hret _
    refine Leaves.call rfl fun ok => Leaves.ite (hret _) (Leaves.bind (asks_ticketBytes _ _ _ _) fun ok => ?_)
    refine Leaves.ite (Leaves.call rfl fun _ => hfail _) (Leaves.call rfl fun ok => Leaves.ite (hfail _)
      (Leaves.call rfl fun r => ?_))
    split
    · refine Leaves.ret ⟨_, rfl, ?_, Nat.not_le.1 hlen⟩
      exact cfg.tktPrefix_line.append ((oneLine_alphabet (mkcookie_mem (by decide) hname)).cons (by decide))
    · exact hfail _
  · exact hret _
  · exact hret _
  · exact hret _

theorem checkDone_leaves (n : Nat) (cfg : HostConfig) (cookie : Str) (first : Bool) (rc : Rc) (si : Sinfo)
    (rekey : Rekey) (conn : Conn) (others : List Conn) :
    Leaves (fun c => c.rekey = rekey ∧ (rc = .loggedOut → c.rc = .retry) ∧
      (rc = .ok → c.rc = .ok ∧ (c.si = si ∨ Reticketed si c.si))) (checkDone n cfg cookie first rc si rekey conn others) := by
  unfold checkDone
  refine Leaves.ite_of (fun h => Leaves.ret ⟨rfl, fun _ => rfl, fun h' => by rw [h] at h'; cases h'⟩) fun h => ?_
  have htail : Leaves (fun c => c.rekey = rekey ∧ (rc = .loggedOut → c.rc = .retry) ∧
      (rc = .ok → c.rc = .ok ∧ (c.si = si ∨ Reticketed si c.si))) (do
        if first && cfg.krbtkt then
          let r ← netretrTicket n cfg ((rekey.bind id).getD cookie) conn si
          return (⟨.ok, r.2, rekey, conn :: others⟩ : Checked)
        return ⟨.ok, si, rekey, conn :: others⟩) := by
    refine Leaves.ite ?_ (Leaves.ret ⟨rfl, fun h' => absurd h' h, fun _ => ⟨rfl, .inl rfl⟩⟩)
    exact (netretrTicket_leaves n cfg _ conn si).seq fun r hr =>
      Leaves.ret ⟨rfl, fun h' => absurd h' h, fun _ => ⟨rfl, .inr hr⟩⟩
  exact Leaves.ite (Leaves.bind (asks_netretrProxy _ _ _ _) fun _ => htail) htail

theorem Reticketed.fits {si si' : Sinfo} (h : si' = si ∨ Reticketed si si') (hs : si.Fits) : si'.Fits := by
  rcases h with rfl | ⟨k, rfl, hk⟩
  · exact hs
  · exact ⟨hs.protocol, hs.ipaddr, hs.user, hs.realm, hs.factor, hk⟩

theorem Reticketed.told {si si' : Sinfo} {a : Answer} (h : si' = si ∨ Reticketed si si') (hs : Says a si) : Says a si' := by
  rcases h with rfl | ⟨k, rfl, -⟩
  · exact hs
  · exact hs

theorem Reticketed.saysFactors {si si' : Sinfo} {a : Answer} (h : si' = si ∨ Reticketed si si')
    (hs : SaysFactors a si) : SaysFactors a si' := by
  rcases h with rfl | ⟨k, rfl, -⟩
  · exact hs
  · exact hs

theorem checkCommand_isRekey (rekey : Rekey) (conn : Conn) (cookie : Str) :
    hasPrefix "REKEY ".toList (checkCommand rekey conn cookie) = rekeys rekey conn := by
  rw [checkCommand]
  cases rekeys rekey conn <;> rfl

/-- What a good answer gives, before the retrievals. -/
theorem behind_of_accepted {cfg : HostConfig} {cookie : Str} {rekey rekey' : Rekey} {conn : Conn} {si si' : Sinfo}
    {w w' : World} {new : List Answer} {a : Answer} (ha : a ∈ new) (hconn : a.conn = conn)
    (hsent : a.sent = checkCommand rekey conn cookie) (hline : OneLine a.line)
    (hcheck : checkLine cfg rekey conn si a.line = (.ok, si', rekey')) (cl : List Conn) {si'' : Sinfo}
    (hsi : si'' = si' ∨ Reticketed si' si'') : Behind cfg cookie rekey w w' new ⟨.ok, si'', rekey', cl⟩ := by
  subst hconn
  have htaken := checkLine_ok hcheck
  have hfactors : SaysFactors a si' := by
    refine ⟨htaken.protocol, fun hs => ?_⟩
    rw [htaken.factor hs, Answer.factor, Answer.isRekey, hsent, checkCommand_isRekey]
    rfl
  refine ⟨⟨a, ha, ⟨rekey, si, si', rekey', hsent, hcheck⟩,
    Reticketed.told hsi ⟨htaken.ipaddr, htaken.user, htaken.realm⟩, Reticketed.saysFactors hsi hfactors, ?_⟩,
    Reticketed.fits hsi (htaken.fits hline)⟩
  have hrekey := htaken.rekey
  split at hrekey
  · rename_i hr
    refine .inr ⟨a.newName, ⟨?_, rfl⟩, hrekey⟩
    rw [hsent, checkCommand, if_pos hr]
  · exact .inl hrekey

theorem CheckPost.after {cfg : HostConfig} {cookie : Str} {rekey : Rekey} {w w₁ w' : World} {c : Checked}
    {n : List Answer} (hq : Quiet w w₁ n) (h : CheckPost cfg cookie rekey w₁ c w') : CheckPost cfg cookie rekey w c w' := by
  obtain ⟨new, hq', hsome, hsame, hbehind⟩ := h
  refine ⟨n ++ new, hq.trans hq', hsome, hsame, fun hok => ?_⟩
  obtain ⟨⟨a, ha, h⟩, hfits⟩ := hbehind hok
  exact ⟨⟨a, List.mem_append_right _ ha, h⟩, hfits⟩

/-- One pass over the connections, if what comes after it keeps the
post-condition. -/
theorem checkPass_spec {n : Nat} {cfg : HostConfig} {cookie : Str} {first fresh : Bool}
    {k : Bool → Sinfo → Rekey → List Conn → FProg Checked} {rekey : Rekey}
    (hk : ∀ retry si cl w, fwp (k retry si rekey cl) (CheckPost cfg cookie rekey w) w) (cl before : List Conn)
    (retry : Bool) (si : Sinfo) (w : World) :
    fwp (checkPass n cfg cookie first fresh k cl before retry si rekey) (CheckPost cfg cookie rekey w) w := by
  induction cl generalizing before retry si w with
  | nil => exact hk retry si before w
  | cons conn rest ih =>
    have hnext : ∀ before retry si w₁ new, Quiet w w₁ new →
        fwp (checkPass n cfg cookie first fresh k rest before retry si rekey) (CheckPost cfg cookie rekey w) w₁ :=
      fun before retry si w₁ new hq => Prog.wp_mono (fun _ _ h => h.after hq) (ih before retry si w₁)
    by_cases hpass : conn.isOpen = fresh
    · rw [checkPass, if_pos hpass]
      exact hnext _ _ _ w [] (Quiet.refl w)
    rw [checkPass_take _ _ _ _ hpass]
    -- the connection is open, or it is opened
    have hask : ∀ conn w₁ new, Quiet w w₁ new →
        fwp (passTurn n cfg cookie first fresh k rest before retry si rekey conn) (CheckPost cfg cookie rekey w) w₁ := by
      intro conn w₁ new hq
      unfold passTurn
      split
      · exact hnext _ _ _ _ _ hq
      rw [fwp, Prog.wp_bind]
      refine Prog.wp_mono ?_ (netcheckCookie_spec cfg cookie rekey conn si w₁)
      rintro ⟨rc, si', rekey'⟩ w₂ ⟨new', hq', hsame, hok⟩
      have hq₂ := hq.trans hq'
      cases rc with
      | error =>
        obtain rfl : rekey' = rekey := hsame (by rintro ⟨⟩)
        dsimp only [passAnswer]
        rw [Prog.wp_bind]
        intro r w₃ hstep _
        obtain ⟨new'', hq''⟩ := filterStep_quiet (o := .close conn.server) rfl hstep
        exact ⟨trivial, hnext _ _ _ _ _ (hq₂.trans hq'')⟩
      | retry =>
        obtain rfl : rekey' = rekey := hsame (by rintro ⟨⟩)
        exact hnext _ _ _ _ _ hq₂
      | loggedOut =>
        obtain rfl : rekey' = rekey := hsame (by rintro ⟨⟩)
        obtain ⟨hasks, hret⟩ := checkDone_leaves n cfg cookie first .loggedOut si' rekey' conn (before ++ rest)
        refine Prog.wp_mono ?_ (fwp_quiet hasks hret w₂)
        rintro c w₃ ⟨⟨hrekey, hrc, -⟩, new'', hq''⟩
        refine ⟨_, hq₂.trans hq'', by rw [hrekey], fun _ => hrekey, fun hok => ?_⟩
        rw [hrc rfl] at hok
        cases hok
      | ok =>
        obtain ⟨a, ha, hconn, hsent, hline, hcheck⟩ := hok rfl
        obtain ⟨hasks, hret⟩ := checkDone_leaves n cfg cookie first .ok si' rekey' conn (before ++ rest)
        refine Prog.wp_mono ?_ (fwp_quiet hasks hret w₂)
        rintro ⟨rc, si'', rekey'', cl⟩ w₃ ⟨⟨hrekey, -, hsi⟩, new'', hq''⟩
        obtain rfl : rekey'' = rekey' := hrekey
        obtain ⟨rfl, hsi⟩ := hsi rfl
        have hbehind : Behind cfg cookie rekey w w₃ (new ++ new' ++ new'') ⟨.ok, si'', rekey'', cl⟩ := behind_of_accepted
          (List.mem_append_left new'' (List.mem_append_right new ha)) hconn hsent hline hcheck cl hsi
        refine ⟨_, hq₂.trans hq'', ?_, fun h => absurd rfl h, fun _ => hbehind⟩
        have hrekeyed := (checkLine_ok hcheck).rekey
        split at hrekeyed
        · rename_i hr
          simp only [rekeys, Bool.and_eq_true] at hr
          rw [hrekeyed, hr.1]
          rfl
        · rw [hrekeyed]
    by_cases hfresh : fresh = true
    · subst hfresh
      rw [if_pos rfl, fwp, Prog.wp_bind]
      intro r w₁ hstep _
      obtain ⟨new, hq⟩ := filterStep_quiet (o := .connect conn.server) rfl hstep
      exact ⟨trivial, hask (connected conn r) _ _ hq⟩
    · rw [if_neg hfresh]
      exact hask conn w [] (Quiet.refl w)

/-- Nothing is written, and a good answer has a reply behind it. -/
theorem checkCookie_spec (n : Nat) (cfg : HostConfig) (cookie : Str) (rekey : Rekey) (si : Sinfo) (first : Bool)
    (cl : List Conn) (w : World) :
    fwp (checkCookie n cfg cookie rekey si first cl) (CheckPost cfg cookie rekey w) w := by
  refine checkPass_spec (fun retry si cl w => checkPass_spec (fun retry si cl w => ?_) cl [] retry si w) cl [] false si w
  refine ⟨[], Quiet.refl w, rfl, fun _ => rfl, fun hok => ?_⟩
  cases retry <;> cases hok

end Cosign.Filter
