import Cosign.Common.Argcargv
import Cosign.Libsnet.Snet
/-!
# The records of the filter

The filter keeps one file per service cookie with what a server last said of
it. `recordText` is the file as `cosign_cookie_valid` writes it and
`readScookie` is `read_scookie`. The two do not agree on the protocol: only
version 2 is read back.
-/

namespace Cosign.Filter

structure Sinfo where
  protocol : Int
  ipaddr : Str
  user : Str
  realm : Str
  factor : Str
  krb5tkt : Str
  itime : Nat
  deriving DecidableEq

/-- `memset` to zero. -/
def Sinfo.zero : Sinfo := ⟨0, [], [], [], [], [], 0⟩

def ipaddrSize : Nat := 256
def userSize : Nat := 130
def realmSize : Nat := 256
def factorSize : Nat := 256
def krb5tktSize : Nat := 4096

/-- `COSIGN_PROTO_SUPPORTS_FACTORS`. -/
def supportsFactors (p : Int) : Bool := 2 ≤ p && p ≤ 3

/-! ## Reading -/

/-- The lines of a whole file, as `snet_getline` returns them. -/
def getlines : RState → (seen rest : Str) → List Str
  | _, seen, [] => if seen = [] then [] else [seen]
  | st, seen, c :: rest =>
    if isEol c then seen :: getlines .fuzzy [] rest
    else if c = '\n' then if st = .fuzzy then getlines .bol [] rest else seen :: getlines .bol [] rest
    else getlines .within (seen ++ [c]) rest

/-- `strcpy` into a buffer of `n`. -/
def strcpy (n : Nat) (s : Str) : Option Str := if s.length < n then some s else none

/-- The switch over the first character of a line: -1 for an unknown key, and
nothing when the value runs over its buffer. -/
def readLine (si : Sinfo) : Str → Option (Int × Sinfo)
  | 'v' :: p => some (0, { si with protocol := if atoi p = 2 then 2 else 0 })
  | 'i' :: p => (strcpy ipaddrSize p).map fun v => (0, { si with ipaddr := v })
  | 'p' :: p => (strcpy userSize p).map fun v => (0, { si with user := v })
  | 'r' :: p => (strcpy realmSize p).map fun v => (0, { si with realm := v })
  | 'f' :: p => (strcpy factorSize p).map fun v => (0, { si with factor := v })
  | 'k' :: p => (strcpy krb5tktSize p).map fun v => (0, { si with krb5tkt := v })
  | _ => some (-1, si)

def readLines : List Str → Sinfo → Option (Int × Sinfo)
  | [], si => some (0, si)
  | line :: rest, si => do
    let (rc, si) ← readLine si line
    if rc < 0 then some (-1, si) else readLines rest si

/-- What `fopen` and the reads of a file gave. -/
inductive Opened where
  | missing
  | failed
  | file (text : Str) (mtime : Nat)
  deriving DecidableEq

/-- `read_scookie`: 0, 1 for a file that could not be opened, or -1. -/
def readScookie : Opened → Option (Int × Sinfo)
  | .missing => some (1, .zero)
  | .failed => some (-1, .zero)
  | .file text mtime => readLines (getlines .bol [] text) { Sinfo.zero with itime := mtime }

/-! ## Writing -/

def fieldLine (key : Char) (v : Str) : Str := key :: v ++ ['\n']

def recordText (si : Sinfo) : Str :=
  fieldLine 'v' (decInt si.protocol) ++ fieldLine 'i' si.ipaddr ++ fieldLine 'p' si.user ++ fieldLine 'r' si.realm ++
    (if supportsFactors si.protocol then fieldLine 'f' si.factor else []) ++
    (if si.krb5tkt = [] then [] else fieldLine 'k' si.krb5tkt)

/-! ## Reading back -/

/-- No character of the text ends a line. -/
def OneLine (v : Str) : Prop := ∀ c ∈ v, c ≠ '\n' ∧ isEol c = false

def isOneLine (v : Str) : Bool := v.all fun c => c != '\n' && !isEol c

theorem oneLine_of_isOneLine {v : Str} (h : isOneLine v = true) : OneLine v := fun c hc => by
  have hboth := List.all_eq_true.1 h c hc
  simpa using hboth

/-- The values that are written fit their buffers, and each is one line. -/
structure Sinfo.Fits (si : Sinfo) : Prop where
  protocol : -2147483648 ≤ si.protocol ∧ si.protocol < 2147483648
  ipaddr : OneLine si.ipaddr ∧ si.ipaddr.length < ipaddrSize
  user : OneLine si.user ∧ si.user.length < userSize
  realm : OneLine si.realm ∧ si.realm.length < realmSize
  factor : supportsFactors si.protocol → OneLine si.factor ∧ si.factor.length < factorSize
  krb5tkt : OneLine si.krb5tkt ∧ si.krb5tkt.length < krb5tktSize

/-- What is read back of a record: the protocol is lost unless it is 2. -/
def Sinfo.reread (si : Sinfo) (mtime : Nat) : Sinfo :=
  { protocol := if si.protocol = 2 then 2 else 0, ipaddr := si.ipaddr, user := si.user, realm := si.realm
    factor := if supportsFactors si.protocol then si.factor else []
    krb5tkt := si.krb5tkt, itime := mtime }

theorem getlines_line {v : Str} (hv : OneLine v) (st : RState) (seen rest : Str) (hst : st ≠ .fuzzy ∨ v ≠ []) :
    getlines st seen (v ++ '\n' :: rest) = (seen ++ v) :: getlines .bol [] rest := by
  induction v generalizing st seen with
  | nil =>
    have hst : st ≠ .fuzzy := hst.resolve_right fun h => h rfl
    have heol : isEol '\n' = false := by decide
    simp [getlines, heol, hst]
  | cons c v ih =>
    obtain ⟨hn, he⟩ := hv c List.mem_cons_self
    rw [List.cons_append, getlines, he, if_neg Bool.false_ne_true, if_neg hn,
      ih (fun d hd => hv d (List.mem_cons_of_mem _ hd)) .within (seen ++ [c]) (.inl (by decide))]
    simp

theorem OneLine.cons {v : Str} {c : Char} (hc : c ≠ '\n' ∧ isEol c = false) (hv : OneLine v) : OneLine (c :: v) := by
  intro d hd
  rcases List.mem_cons.1 hd with rfl | hd
  · exact hc
  · exact hv d hd

theorem getlines_field (key : Char) {v : Str} (hkey : key ≠ '\n' ∧ isEol key = false) (hv : OneLine v) (rest : Str) :
    getlines .bol [] (fieldLine key v ++ rest) = (key :: v) :: getlines .bol [] rest := by
  have h := getlines_line (hv.cons hkey) .bol [] rest (.inl (by decide))
  simpa [fieldLine] using h

theorem oneLine_digits {v : Str} (hv : ∀ c ∈ v, c.isDigit = true) : OneLine v := by
  intro c hc
  have hd := hv c hc
  refine ⟨?_, ?_⟩
  · rintro rfl
    exact absurd hd (by decide)
  · simp only [isEol, Bool.or_eq_false_iff, decide_eq_false_iff_not]
    refine ⟨?_, ?_⟩
    · rintro rfl
      exact absurd hd (by decide)
    · rintro rfl
      exact absurd hd (by decide)

theorem oneLine_decInt (p : Int) : OneLine (decInt p) := by
  cases p with
  | ofNat n => exact oneLine_digits (dec_isDigit n)
  | negSucc n => exact (oneLine_digits (dec_isDigit _)).cons (by decide)

/-- A record is read back as it was written, but for the protocol. -/
theorem readScookie_recordText {si : Sinfo} (h : si.Fits) (mtime : Nat) :
    readScookie (.file (recordText si) mtime) = some (0, si.reread mtime) := by
  have hv := getlines_field 'v' (by decide) (oneLine_decInt si.protocol)
  have hi := getlines_field 'i' (by decide) h.ipaddr.1
  have hu := getlines_field 'p' (by decide) h.user.1
  have hr := getlines_field 'r' (by decide) h.realm.1
  have hk := getlines_field 'k' (by decide) h.krb5tkt.1
  have hk' := hk []
  have hr' := hr []
  rw [List.append_nil] at hk' hr'
  have hnil : getlines .bol [] [] = [] := rfl
  have hbounds := And.intro h.ipaddr.2 (And.intro h.user.2 (And.intro h.realm.2 h.krb5tkt.2))
  simp only [readScookie, recordText, List.append_assoc, hv, hi, hu]
  -- which of the two last lines are there
  by_cases hs : supportsFactors si.protocol
  · obtain ⟨hline, hlen⟩ := h.factor hs
    have hf := getlines_field 'f' (by decide) hline
    have hf' := hf []
    rw [List.append_nil] at hf'
    by_cases hkt : si.krb5tkt = []
    · simp [hs, hkt, hr, hf', hnil, readLines, readLine, strcpy, hbounds, hlen, atoi_decInt h.protocol, Sinfo.reread,
        Sinfo.zero]
    · simp [hs, hkt, hr, hf, hk', hnil, readLines, readLine, strcpy, hbounds, hlen, atoi_decInt h.protocol,
        Sinfo.reread, Sinfo.zero]
  · by_cases hkt : si.krb5tkt = []
    · simp [hs, hkt, hr', hnil, readLines, readLine, strcpy, hbounds, atoi_decInt h.protocol, Sinfo.reread, Sinfo.zero]
    · simp [hs, hkt, hr, hk', hnil, readLines, readLine, strcpy, hbounds, atoi_decInt h.protocol, Sinfo.reread,
        Sinfo.zero]

/-- What is read of any file is one line to a value. -/
theorem getlines_oneLine (st : RState) (seen rest : Str) (h : OneLine seen) : ∀ l ∈ getlines st seen rest, OneLine l := by
  have hnil : OneLine [] := fun _ hc => absurd hc List.not_mem_nil
  induction st, seen, rest using getlines.induct with
  | case1 st => simp [getlines]
  | case2 st seen hne =>
    intro l hl
    rw [getlines, if_neg hne] at hl
    exact List.mem_singleton.1 hl ▸ h
  | case3 st seen c rest hc ih =>
    intro l hl
    rw [getlines, if_pos hc] at hl
    rcases List.mem_cons.1 hl with rfl | hl
    · exact h
    · exact ih hnil l hl
  | case4 seen rest hc ih =>
    intro l hl
    rw [getlines, if_neg hc, if_pos rfl, if_pos rfl] at hl
    exact ih hnil l hl
  | case5 st seen rest hc hst ih =>
    intro l hl
    rw [getlines, if_neg hc, if_pos rfl, if_neg hst] at hl
    rcases List.mem_cons.1 hl with rfl | hl
    · exact h
    · exact ih hnil l hl
  | case6 st seen c rest hc hn ih =>
    intro l hl
    rw [getlines, if_neg hc, if_neg hn] at hl
    refine ih (fun d hd => ?_) l hl
    rcases List.mem_append.1 hd with hd | hd
    · exact h d hd
    · obtain rfl := List.mem_singleton.1 hd
      exact ⟨hn, Bool.eq_false_iff.2 hc⟩

theorem readLine_krb5tkt {si si' : Sinfo} {line : Str} {rc : Int} (hline : OneLine line)
    (hsi : OneLine si.krb5tkt ∧ si.krb5tkt.length < krb5tktSize) (h : readLine si line = some (rc, si')) :
    OneLine si'.krb5tkt ∧ si'.krb5tkt.length < krb5tktSize := by
  unfold readLine at h
  split at h
  case h_6 p =>
    obtain ⟨v, hv, he⟩ := Option.map_eq_some_iff.1 h
    cases he
    rw [strcpy] at hv
    split at hv
    · cases hv
      rename_i hlen
      exact ⟨fun c hc => hline c (List.mem_cons_of_mem _ hc), hlen⟩
    · cases hv
  case h_1 => cases h; exact hsi
  case h_7 => cases h; exact hsi
  all_goals
    obtain ⟨v, -, he⟩ := Option.map_eq_some_iff.1 h
    cases he
    exact hsi

theorem readLines_krb5tkt {lines : List Str} {si si' : Sinfo} {rc : Int} (hlines : ∀ l ∈ lines, OneLine l)
    (hsi : OneLine si.krb5tkt ∧ si.krb5tkt.length < krb5tktSize) (h : readLines lines si = some (rc, si')) :
    OneLine si'.krb5tkt ∧ si'.krb5tkt.length < krb5tktSize := by
  induction lines generalizing si with
  | nil => cases h; exact hsi
  | cons line rest ih =>
    simp only [readLines, Option.bind_eq_bind, Option.bind_eq_some_iff] at h
    obtain ⟨⟨rc', si₁⟩, hline, h⟩ := h
    have hsi₁ := readLine_krb5tkt (hlines line List.mem_cons_self) hsi hline
    dsimp only at h
    split at h
    · cases h; exact hsi₁
    · exact ih (fun l hl => hlines l (List.mem_cons_of_mem _ hl)) hsi₁ h

theorem readScookie_krb5tkt {o : Opened} {si : Sinfo} {rc : Int} (h : readScookie o = some (rc, si)) :
    OneLine si.krb5tkt ∧ si.krb5tkt.length < krb5tktSize := by
  have hzero : OneLine Sinfo.zero.krb5tkt ∧ Sinfo.zero.krb5tkt.length < krb5tktSize :=
    ⟨fun _ hc => absurd hc List.not_mem_nil, by simp [Sinfo.zero, krb5tktSize]⟩
  cases o with
  | missing => cases h; exact hzero
  | failed => cases h; exact hzero
  | file text mtime =>
    have hstart : OneLine { Sinfo.zero with itime := mtime }.krb5tkt ∧
        { Sinfo.zero with itime := mtime }.krb5tkt.length < krb5tktSize := hzero
    exact readLines_krb5tkt (getlines_oneLine _ _ _ fun _ hc => absurd hc List.not_mem_nil) hstart h

/-- The time of a file goes through the reading as it is. -/
theorem readLine_at (si : Sinfo) (line : Str) (t : Nat) :
    readLine { si with itime := t } line = (readLine si line).map fun r => (r.1, { r.2 with itime := t }) := by
  unfold readLine
  split
  case h_1 => rfl
  case h_7 => rfl
  all_goals
    rw [Option.map_map]
    rfl

theorem readLines_at (lines : List Str) (si : Sinfo) (t : Nat) :
    readLines lines { si with itime := t } = (readLines lines si).map fun r => (r.1, { r.2 with itime := t }) := by
  induction lines generalizing si with
  | nil => rfl
  | cons line rest ih =>
    simp only [readLines, readLine_at, Option.bind_eq_bind]
    cases readLine si line with
    | none => rfl
    | some r =>
      simp only [Option.map_some, Option.bind_some]
      split
      · rfl
      · exact ih r.2

theorem readScookie_at {text : Str} {m : Nat} {rc : Int} {si : Sinfo} (h : readScookie (.file text m) = some (rc, si))
    (t : Nat) : readScookie (.file text t) = some (rc, { si with itime := t }) := by
  have hat := readLines_at (getlines .bol [] text) { Sinfo.zero with itime := m } t
  have hsame : readLines (getlines .bol [] text) { Sinfo.zero with itime := m } = some (rc, si) := h
  rw [hsame] at hat
  exact hat

theorem readLine_itime {si si' : Sinfo} {line : Str} {rc : Int} (h : readLine si line = some (rc, si')) :
    si'.itime = si.itime := by
  unfold readLine at h
  split at h
  case h_1 => cases h; rfl
  case h_7 => cases h; rfl
  all_goals
    obtain ⟨v, -, he⟩ := Option.map_eq_some_iff.1 h
    cases he
    rfl

theorem readLines_itime {lines : List Str} {si si' : Sinfo} {rc : Int} (h : readLines lines si = some (rc, si')) :
    si'.itime = si.itime := by
  induction lines generalizing si with
  | nil => cases h; rfl
  | cons line rest ih =>
    simp only [readLines, Option.bind_eq_bind, Option.bind_eq_some_iff] at h
    obtain ⟨⟨rc', si₁⟩, hline, h⟩ := h
    have hsi₁ := readLine_itime hline
    dsimp only at h
    split at h
    · cases h; exact hsi₁
    · exact (ih h).trans hsi₁

theorem readScookie_itime {text : Str} {mtime : Nat} {si : Sinfo} {rc : Int}
    (h : readScookie (.file text mtime) = some (rc, si)) : si.itime = mtime := readLines_itime h

end Cosign.Filter
