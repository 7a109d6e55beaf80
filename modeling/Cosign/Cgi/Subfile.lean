import Mathlib
/-!
# The pages of the CGI

`subfile` prints a template with the values of a table put in. A `char` is
signed here, as it is where the daemons run, so a byte above 0x7F is negative
when it is compared.
-/

namespace Cosign.Cgi

abbrev Bytes := List UInt8

/-- The bytes of an ASCII literal. -/
def ascii (s : String) : Bytes := s.toList.map fun c => UInt8.ofNat c.toNat

inductive SubfType where
  /-- `SUBF_STR` -/
  | str
  /-- `SUBF_STR_ESC` -/
  | strEsc
  deriving DecidableEq

/-- `struct subfile_list`. The row whose letter is NUL ends the table, and is
the end of the list here. -/
structure SubfileEntry where
  letter : Int8
  letter_ne : letter ≠ 0
  type : SubfType
  data : Option Bytes

def nasties : Bytes := ascii "<>(){}[]'`\" \\"

/-- A byte as a `char`. -/
def charInt (b : UInt8) : Int := if b.toNat < 128 then b.toNat else b.toNat - 256

def hexDigit (n : Nat) : UInt8 := UInt8.ofNat (if n < 10 then 48 + n else 87 + n)

/-- `%x` of an `unsigned int`. -/
def hex (n : Nat) : Bytes := if n < 16 then [hexDigit n] else hex (n / 16) ++ [hexDigit (n % 16)]

/-- The test before a byte is printed. `strchr` finds the NUL as well. -/
def isNasty (b : UInt8) : Bool := b = 0 || b ∈ nasties || charInt b ≤ 0x1F || charInt b ≥ 0x7F

/-- One round of the loop that blocks XSS attacks. -/
def escByte (b : UInt8) : Bytes := if isNasty b then 37 :: hex (charInt b % 2 ^ 32).toNat else [b]

/-- The loop over the table. -/
def findLetter (c : UInt8) : List SubfileEntry → Option SubfileEntry
  | [] => none
  | e :: sl => if e.letter.toInt = c.toNat then some e else findLetter c sl

/-- What is printed for an entry. -/
def SubfileEntry.print (e : SubfileEntry) : Bytes :=
  match e.data with
  | none => []
  | some data =>
    match e.type with
    | .str => data
    | .strEsc => data.flatMap escByte

/-- The loop over the bytes of the file, with what is printed so far. -/
def subfileLoop (sl : List SubfileEntry) : (fs out : Bytes) → Bytes
  | [], out => out
  | [c], out => out ++ [c]
  | c :: d :: fs, out =>
    if c ≠ 36 then subfileLoop sl (d :: fs) (out ++ [c])
    else if d = 36 then subfileLoop sl fs (out ++ [d])
    else match findLetter d sl with
      | none => subfileLoop sl fs (out ++ [36] ++ [d])
      | some e => subfileLoop sl fs (out ++ e.print)

def nocacheText : String :=
  "Expires: Mon, 16 Apr 1973 13:10:00 GMT\nLast-Modified: Mon, 16 Apr 1973 13:10:00 GMT\n" ++
    "Cache-Control: no-store, no-cache, must-revalidate\nCache-Control: pre-check=0, post-check=0, max-age=0\n" ++
    "Pragma: no-cache\n"

/-- What goes before the page. -/
def subfileHeaders (nocache : Bool) : Bytes :=
  (if nocache then ascii nocacheText else []) ++ ascii "Content-type: text/html\n\n"

/-- `subfile`: what is printed, and whether it returns. -/
def subfile (file : Option Bytes) (sl : List SubfileEntry) (nocache : Bool) : Bytes × Bool :=
  match file with
  | none => (subfileHeaders nocache, false)
  | some fs => (subfileLoop sl fs (subfileHeaders nocache), true)

/-! ## What a page should be -/

/-- A byte that means nothing to a browser: neither a blank, a control
character nor one above `~`, and no bracket, quote or backslash. -/
def Inert (b : UInt8) : Prop := 0x20 < b.toNat ∧ b.toNat ≤ 0x7E ∧ b ∉ ascii "<>(){}[]'`\"\\"

instance : DecidablePred Inert := fun b => inferInstanceAs (Decidable (0x20 < b.toNat ∧ b.toNat ≤ 0x7E ∧ _))

/-- The data with every other byte spelled out after a `%`. -/
inductive Escapes : Bytes → Bytes → Prop
  | nil : Escapes [] []
  | inert {b data text} : Inert b → Escapes data text → Escapes (b :: data) (b :: text)
  | spelled {b data text} {hs : Bytes} : ¬ Inert b → hs ≠ [] → (∀ h ∈ hs, h ∈ ascii "0123456789abcdef") →
      Escapes data text → Escapes (b :: data) (37 :: hs ++ text)

/-- The text for an entry of the table. -/
inductive Shows : SubfileEntry → Bytes → Prop
  | null {letter h type} : Shows ⟨letter, h, type, none⟩ []
  | str {letter h data} : Shows ⟨letter, h, .str, some data⟩ data
  | strEsc {letter h data text} : Escapes data text → Shows ⟨letter, h, .strEsc, some data⟩ text

/-- The first entry for the letter. -/
def Names (sl : List SubfileEntry) (c : UInt8) (e : SubfileEntry) : Prop :=
  ∃ before after, sl = before ++ e :: after ∧ e.letter.toInt = c.toNat ∧ ∀ d ∈ before, d.letter.toInt ≠ c.toNat

/-- The template and the page. -/
inductive Expands (sl : List SubfileEntry) : Bytes → Bytes → Prop
  | nil : Expands sl [] []
  | trailing : Expands sl [36] [36]
  | dollar {fs text} : Expands sl fs text → Expands sl (36 :: 36 :: fs) (36 :: text)
  | known {c e shown fs text} : c ≠ 36 → Names sl c e → Shows e shown → Expands sl fs text →
      Expands sl (36 :: c :: fs) (shown ++ text)
  | unknown {c fs text} : c ≠ 36 → (∀ e, ¬ Names sl c e) → Expands sl fs text →
      Expands sl (36 :: c :: fs) (36 :: c :: text)
  | verbatim {c fs text} : c ≠ 36 → Expands sl fs text → Expands sl (c :: fs) (c :: text)

/-! ## Escaped data -/

theorem hexDigit_mem : ∀ n < 16, hexDigit n ∈ ascii "0123456789abcdef" := by decide

theorem hex_mem (n : Nat) : ∀ h ∈ hex n, h ∈ ascii "0123456789abcdef" := by
  induction n using hex.induct with
  | case1 n hn =>
    intro h hh
    rw [hex, if_pos hn] at hh
    obtain rfl := List.mem_singleton.1 hh
    exact hexDigit_mem n hn
  | case2 n hn ih =>
    intro h hh
    rw [hex, if_neg hn] at hh
    rcases List.mem_append.1 hh with hh | hh
    · exact ih h hh
    · obtain rfl := List.mem_singleton.1 hh
      exact hexDigit_mem _ (Nat.mod_lt _ (by decide))

theorem hex_ne_nil (n : Nat) : hex n ≠ [] := by
  rw [hex]
  split <;> simp

theorem hex_inert : ∀ h ∈ ascii "0123456789abcdef", Inert h := by decide +kernel

theorem mem_nasties (b : UInt8) : b ∈ nasties ↔ b = 32 ∨ b ∈ ascii "<>(){}[]'`\"\\" := by
  have hn : nasties = [60, 62, 40, 41, 123, 125, 91, 93, 39, 96, 34, 32, 92] := by decide
  have ha : ascii "<>(){}[]'`\"\\" = [60, 62, 40, 41, 123, 125, 91, 93, 39, 96, 34, 92] := by decide
  rw [hn, ha]
  simp only [List.mem_cons, List.not_mem_nil]
  tauto

/-- The signed comparisons leave exactly the bytes from `!` to `~`. -/
theorem isNasty_iff (b : UInt8) : isNasty b = true ↔ ¬ Inert b := by
  have hb := b.toNat_lt
  have h0 : b = 0 ↔ b.toNat = 0 := by rw [← UInt8.toNat_inj]; rfl
  have h32 : b = 32 ↔ b.toNat = 32 := by rw [← UInt8.toNat_inj]; rfl
  simp only [isNasty, Inert, Bool.or_eq_true, decide_eq_true_eq, mem_nasties, charInt, h0, h32]
  by_cases hm : b ∈ ascii "<>(){}[]'`\"\\"
  · simp [hm]
  · simp only [hm, or_false, not_false_eq_true, and_true]
    split
    · simp only [decide_eq_true_eq]; omega
    · simp only [decide_eq_true_eq]; omega

theorem escapes_flatMap (data : Bytes) : Escapes data (data.flatMap escByte) := by
  induction data with
  | nil => exact .nil
  | cons b data ih =>
    rw [List.flatMap_cons, escByte]
    by_cases hb : Inert b
    · rw [if_neg (by rw [isNasty_iff]; exact not_not_intro hb)]
      exact .inert hb ih
    · rw [if_pos ((isNasty_iff b).2 hb)]
      exact .spelled hb (hex_ne_nil _) (hex_mem _) ih

theorem Escapes.inert_text {data text : Bytes} (h : Escapes data text) : ∀ b ∈ text, Inert b := by
  induction h with
  | nil => intro b hb; cases hb
  | inert hb _ ih =>
    intro c hc
    rcases List.mem_cons.1 hc with rfl | hc
    · exact hb
    · exact ih c hc
  | @spelled b data text hs _ _ hhex _ ih =>
    intro c hc
    rcases List.mem_append.1 hc with hc | hc
    · rcases List.mem_cons.1 hc with rfl | hc
      · decide
      · exact hex_inert c (hhex c hc)
    · exact ih c hc

/-! ## The page -/

theorem shows_print (e : SubfileEntry) : Shows e e.print := by
  obtain ⟨letter, hne, type, data⟩ := e
  cases data with
  | none => exact .null
  | some data =>
    cases type with
    | str => exact .str
    | strEsc => exact .strEsc (escapes_flatMap data)

theorem findLetter_some {c : UInt8} {sl : List SubfileEntry} {e : SubfileEntry} (h : findLetter c sl = some e) :
    Names sl c e := by
  induction sl with
  | nil => cases h
  | cons d sl ih =>
    rw [findLetter] at h
    split at h
    · rename_i hd
      cases h
      exact ⟨[], sl, rfl, hd, by simp⟩
    · rename_i hd
      obtain ⟨before, after, rfl, he, hbefore⟩ := ih h
      exact ⟨d :: before, after, rfl, he, List.forall_mem_cons.2 ⟨hd, hbefore⟩⟩

theorem findLetter_none {c : UInt8} {sl : List SubfileEntry} (h : findLetter c sl = none) (e : SubfileEntry) :
    ¬ Names sl c e := by
  rintro ⟨before, after, rfl, he, -⟩
  induction before with
  | nil => rw [List.nil_append, findLetter, if_pos he] at h; cases h
  | cons d before ih =>
    rw [List.cons_append, findLetter] at h
    split at h
    · cases h
    · exact ih h

/-- What is printed before stays, and the rest is the template's expansion. -/
theorem subfileLoop_expands (sl : List SubfileEntry) (fs out : Bytes) :
    ∃ text, subfileLoop sl fs out = out ++ text ∧ Expands sl fs text := by
  induction fs, out using subfileLoop.induct sl with
  | case1 out => exact ⟨[], by rw [subfileLoop, List.append_nil], .nil⟩
  | case2 c out =>
    refine ⟨[c], rfl, ?_⟩
    by_cases hc : c = 36
    · rw [hc]; exact .trailing
    · exact .verbatim hc .nil
  | case3 c d fs out hc ih =>
    obtain ⟨text, ht, hx⟩ := ih
    exact ⟨c :: text, by rw [subfileLoop, if_pos hc, ht]; simp, .verbatim hc hx⟩
  | case4 c fs out hc ih =>
    obtain ⟨text, ht, hx⟩ := ih
    obtain rfl := not_not.1 hc
    exact ⟨36 :: text, by rw [subfileLoop, if_neg hc, if_pos rfl, ht]; simp, .dollar hx⟩
  | case5 c d fs out hc hd hfind ih =>
    obtain ⟨text, ht, hx⟩ := ih
    obtain rfl := not_not.1 hc
    refine ⟨36 :: d :: text, ?_, .unknown hd (findLetter_none hfind) hx⟩
    rw [subfileLoop, if_neg hc, if_neg hd, hfind]
    dsimp only
    rw [ht]
    simp
  | case6 c d fs out hc hd e hfind ih =>
    obtain ⟨text, ht, hx⟩ := ih
    obtain rfl := not_not.1 hc
    refine ⟨e.print ++ text, ?_, .known hd (findLetter_some hfind) (shows_print e) hx⟩
    rw [subfileLoop, if_neg hc, if_neg hd, hfind]
    dsimp only
    rw [ht, List.append_assoc]

/-- The page is the template with the table's data put in, and escaped data is
inert. -/
theorem subfile_faithful (sl : List SubfileEntry) (nocache : Bool) (template : Bytes) :
    (∃ text, subfile (some template) sl nocache = (subfileHeaders nocache ++ text, true) ∧ Expands sl template text) ∧
    ∀ e shown, e.type = .strEsc → Shows e shown → ∀ b ∈ shown, Inert b := by
  refine ⟨?_, fun e shown htype hshows => ?_⟩
  · obtain ⟨text, ht, hx⟩ := subfileLoop_expands sl template (subfileHeaders nocache)
    exact ⟨text, by rw [subfile, ht], hx⟩
  · cases hshows with
    | null => intro b hb; cases hb
    | str => cases htype
    | strEsc h => exact h.inert_text

end Cosign.Cgi
