import Cosign.Libsnet.Buffer
/-!
# Posted forms

`cgi_post` reads one line of the request's body and takes it apart: at each `&`
into fields, at the first `=` of a field into its key and its data, both
unescaped. What it knows of the keys is a table that the caller hands in.

`Escapes` is what an escaped text may look like. Any form that is escaped so, in
whatever way, comes back as it was.
-/

namespace Cosign

open Lib

/-- `strtok`, call after call, with one delimiter. -/
def strtokAll (d : Char) (s : Str) : List Str := (s.splitOn d).filter (· ≠ [])

/-! ## `cgi_unescape` -/

def hexVal (c : Char) : Option Nat :=
  if '0' ≤ c ∧ c ≤ '9' then some (c.toNat - 48)
  else if 'a' ≤ c ∧ c ≤ 'f' then some (c.toNat - 87)
  else if 'A' ≤ c ∧ c ≤ 'F' then some (c.toNat - 55)
  else none

def hexDigits (acc : Nat) : Str → Nat
  | [] => acc
  | c :: s =>
    match hexVal c with
    | some v => hexDigits (16 * acc + v) s
    | none => acc

/-- A `0x` counts as a sign of the base where a digit comes after it. -/
def hexNumber : Str → Nat
  | '0' :: x :: c :: s => if (x = 'x' ∨ x = 'X') ∧ (hexVal c).isSome then hexDigits 0 (c :: s) else hexDigits 0 ('0' :: x :: c :: s)
  | s => hexDigits 0 s

/-- `strtol(s, NULL, 16)` of a string too short to overflow. -/
def strtolHex (s : Str) : Int :=
  match s.dropWhile isspace with
  | '-' :: r => -(hexNumber r : Int)
  | '+' :: r => hexNumber r
  | r => hexNumber r

/-- The cast to `char`. -/
def toChar (v : Int) : Char := Char.ofNat (v % 256).toNat

/-- What `cgi_unescape` writes, up to its terminator. -/
def unescapeAll : Str → Option Str
  | [] => some []
  | '%' :: a :: b :: raw => (unescapeAll raw).map (toChar (strtolHex [a, b]) :: ·)
  | '%' :: _ => none
  | c :: raw => (unescapeAll raw).map ((if c = '+' then ' ' else c) :: ·)

/-- `cgi_unescape`: the C string that it leaves. -/
def cgiUnescape (raw : Str) : Option Str := (unescapeAll raw).map (·.takeWhile (· ≠ nul))

/-! ## `cgi_querystring` -/

/-- The keys a form may have, and what `cl_data` points to. -/
abbrev CgiList := List (Str × Option Str)

/-- `cl_data` of the first entry with the key. -/
def CgiList.put (key : Str) (data : Option Str) : CgiList → CgiList
  | [] => []
  | e :: cl => if e.1 = key then (e.1, data) :: cl else e :: put key data cl

def CgiList.knows (cl : CgiList) (key : Str) : Bool := cl.any (·.1 = key)

/-- One round of the loop: `none` where -1 is returned. -/
def cgiField (cl : CgiList) (field : Str) : Option CgiList :=
  if '=' ∈ field then
    let data := (field.dropWhile (· ≠ '=')).tail
    (cgiUnescape (field.takeWhile (· ≠ '='))).bind fun key =>
      if cl.knows key then
        if data = [] then some (cl.put key none) else (cgiUnescape data).map fun data => cl.put key (some data)
      else some cl
  else none

/-- The loop, with whether it came to its end. What it has set stays set. -/
def cgiFields : List Str → CgiList → Bool × CgiList
  | [], cl => (true, cl)
  | field :: fields, cl =>
    match cgiField cl field with
    | some cl => cgiFields fields cl
    | none => (false, cl)

def cgiQuerystring (line : Str) (cl : CgiList) : Bool × CgiList := cgiFields (strtokAll '&' line) cl

/-- What the request has that `cgi_post` looks at. -/
structure PostEnv where
  requestMethod : Option Str
  contentType : Option Str
  /-- The standard input to its end. -/
  body : Str

def formType : Str := "application/x-www-form-urlencoded".toList

/-- `cgi_post`, with whether it returns 0. `post_getline` reads the first line. -/
def cgiPost (env : PostEnv) (cl : CgiList) : Bool × CgiList :=
  match env.requestMethod, env.contentType, SNET.ends.cutLine env.body with
  | some method, some type, some x =>
    if strcaseeq method "POST".toList && type = formType then cgiQuerystring x.1 cl else (false, cl)
  | _, _, _ => (false, cl)

/-! ## Escaped text -/

/-- A character that stands for itself in an escaped text. -/
def isPlainForm (c : Char) : Bool := c ∉ ['+', '%', '&', '=', '\n', '\r', nul]

/-- The text `t` is `s` with some of its characters escaped. -/
inductive Escapes : (s t : Str) → Prop
  | nil : Escapes [] []
  | plain {s t : Str} {c : Char} (hc : isPlainForm c = true) (h : Escapes s t) : Escapes (c :: s) (c :: t)
  | blank {s t : Str} (h : Escapes s t) : Escapes (' ' :: s) ('+' :: t)
  | hex {s t : Str} {c a b : Char} {x y : Nat} (ha : hexVal a = some x) (hb : hexVal b = some y) (hc : c.toNat = 16 * x + y)
      (h : Escapes s t) : Escapes (c :: s) ('%' :: a :: b :: t)

theorem hexVal_spec {c : Char} {v : Nat} (h : hexVal c = some v) :
    v < 16 ∧ isPlainForm c = true ∧ isspace c = false ∧ c ≠ '-' ∧ c ≠ '+' ∧ c ≠ 'x' ∧ c ≠ 'X' := by
  have hall : ∀ n < 128, ∀ v ∈ hexVal (Char.ofNat n), v < 16 ∧ isPlainForm (Char.ofNat n) = true ∧
      isspace (Char.ofNat n) = false ∧ Char.ofNat n ≠ '-' ∧ Char.ofNat n ≠ '+' ∧ Char.ofNat n ≠ 'x' ∧
      Char.ofNat n ≠ 'X' := by decide +kernel
  have hlt : c.toNat < 128 := by
    have hle : ∀ d : Char, c ≤ d → c.toNat ≤ d.toNat := fun d hd => hd
    unfold hexVal at h
    split at h
    · rename_i hd; exact lt_of_le_of_lt (hle _ hd.2) (by decide)
    · split at h
      · rename_i hd; exact lt_of_le_of_lt (hle _ hd.2) (by decide)
      · split at h
        · rename_i hd; exact lt_of_le_of_lt (hle _ hd.2) (by decide)
        · cases h
  have := hall c.toNat hlt v
  rw [Char.ofNat_toNat] at this
  exact this h

/-- Two digits are read as the number they write. -/
theorem strtolHex_two {a b : Char} {x y : Nat} (ha : hexVal a = some x) (hb : hexVal b = some y) :
    strtolHex [a, b] = 16 * x + y := by
  obtain ⟨-, -, hsp, hm, hp, -⟩ := hexVal_spec ha
  have hdrop : [a, b].dropWhile isspace = [a, b] := by simp [hsp]
  have hnum : hexNumber [a, b] = 16 * x + y := by
    rw [hexNumber]
    · simp [hexDigits, ha, hb]
    · intro x c s h; simp at h
  rw [strtolHex, hdrop]
  split
  · rename_i h; cases h; exact absurd rfl hm
  · rename_i h; cases h; exact absurd rfl hp
  · rw [hnum]; rfl

/-- What was escaped comes back. -/
theorem unescapeAll_escapes {s t : Str} (h : Escapes s t) : unescapeAll t = some s := by
  induction h with
  | nil => rfl
  | @plain s t c hc h ih =>
    have hp : c ≠ '%' := by rintro rfl; simp [isPlainForm] at hc
    have hplus : c ≠ '+' := by rintro rfl; simp [isPlainForm] at hc
    rw [unescapeAll]
    · rw [ih, if_neg hplus]; rfl
    · rintro a b raw rfl; exact absurd rfl hp
    · exact hp
  | blank h ih => simp [unescapeAll, ih]
  | @hex s t c a b x y ha hb hc h ih =>
    rw [unescapeAll, ih, strtolHex_two ha hb]
    have hlt : c.toNat < 256 := by
      have := (hexVal_spec ha).1
      have := (hexVal_spec hb).1
      omega
    have hch : toChar (16 * x + y) = c := by
      rw [toChar, show ((16 * x + y : Int) % 256).toNat = c.toNat by omega]
      exact Char.ofNat_toNat c
    rw [hch]
    rfl

theorem cgiUnescape_escapes {s t : Str} (h : Escapes s t) (hs : nul ∉ s) : cgiUnescape t = some s := by
  rw [cgiUnescape, unescapeAll_escapes h, Option.map_some, List.takeWhile_eq_self_iff.2]
  intro c hc
  exact decide_eq_true fun h0 => hs (h0 ▸ hc)

/-- An escaped text has nothing in it that parts fields or ends the line. -/
theorem escapes_plain {s t : Str} (h : Escapes s t) : ∀ c ∈ t, isPlainForm c = true ∨ c = '%' ∨ c = '+' := by
  induction h with
  | nil => simp
  | plain hc h ih =>
    intro d hd
    rcases List.mem_cons.1 hd with rfl | hd
    · exact .inl hc
    · exact ih d hd
  | blank h ih =>
    intro d hd
    rcases List.mem_cons.1 hd with rfl | hd
    · exact .inr (.inr rfl)
    · exact ih d hd
  | hex ha hb hc h ih =>
    intro d hd
    simp only [List.mem_cons] at hd
    rcases hd with rfl | rfl | rfl | hd
    · exact .inr (.inl rfl)
    · exact .inl (hexVal_spec ha).2.1
    · exact .inl (hexVal_spec hb).2.1
    · exact ih d hd

/-! ## Forms -/

/-- One field, escaped. -/
structure EscapedField (f : Str × Str) (t : Str) : Prop where
  text : ∃ k d, t = k ++ '=' :: d ∧ Escapes f.1 k ∧ Escapes f.2 d
  string : nul ∉ f.1 ∧ nul ∉ f.2

/-- Fields with an `&` between them. -/
def joinFields : List Str → Str
  | [] => []
  | [t] => t
  | t :: ts => t ++ '&' :: joinFields ts

/-- What one field of a form sets. No data is no string at all. -/
def CgiList.set (cl : CgiList) (f : Str × Str) : CgiList :=
  if cl.knows f.1 then cl.put f.1 (if f.2 = [] then none else some f.2) else cl

theorem escapes_nil {s : Str} (h : Escapes s []) : s = [] := by cases h; rfl

theorem escapes_ne_nil {s t : Str} (h : Escapes s t) (hs : s = []) : t = [] := by
  subst hs
  cases h
  rfl

theorem not_mem_escapes {s t : Str} (h : Escapes s t) {c : Char} (hc : c ∈ ['&', '=', '\n', '\r', nul]) : c ∉ t := by
  intro hm
  rcases escapes_plain h c hm with hp | rfl | rfl
  · simp only [List.mem_cons, List.not_mem_nil, or_false] at hc
    rcases hc with rfl | rfl | rfl | rfl | rfl <;> exact absurd hp (by decide)
  · exact absurd hc (by decide)
  · exact absurd hc (by decide)

theorem cgiField_escaped (cl : CgiList) {f : Str × Str} {t : Str} (h : EscapedField f t) :
    cgiField cl t = some (cl.set f) := by
  obtain ⟨k, d, rfl, hk, hd⟩ := h.text
  have hne : ∀ c ∈ k, decide (c ≠ '=') = true := fun c hc =>
    decide_eq_true fun he => not_mem_escapes hk (by decide) (he ▸ hc)
  have htake : (k ++ '=' :: d).takeWhile (· ≠ '=') = k := by
    rw [List.takeWhile_append_of_pos hne]
    simp
  have hdrop : (k ++ '=' :: d).dropWhile (· ≠ '=') = '=' :: d := by
    rw [List.dropWhile_append_of_pos hne]
    simp
  have hdata : d = [] ↔ f.2 = [] :=
    ⟨fun h0 => escapes_nil (h0 ▸ hd), fun h0 => escapes_ne_nil hd h0⟩
  rw [cgiField, if_pos (by simp), htake, hdrop, List.tail_cons, cgiUnescape_escapes hk h.string.1, Option.bind_some,
    CgiList.set]
  split
  · by_cases h0 : d = []
    · rw [if_pos h0, if_pos (hdata.1 h0)]
    · rw [if_neg h0, if_neg fun hf => h0 (hdata.2 hf), cgiUnescape_escapes hd h.string.2]
      rfl
  · rfl

theorem cgiFields_escaped {fs : List (Str × Str)} {ts : List Str} (h : List.Forall₂ EscapedField fs ts) (cl : CgiList) :
    cgiFields ts cl = (true, fs.foldl CgiList.set cl) := by
  induction h generalizing cl with
  | nil => rfl
  | cons hf _ ih => rw [cgiFields, cgiField_escaped cl hf, List.foldl_cons]; exact ih _

/-- The fields of a line are those that were joined, as none of them is empty. -/
theorem strtok_join {ts : List Str} (h : ∀ t ∈ ts, '&' ∉ t ∧ t ≠ []) : strtokAll '&' (joinFields ts) = ts := by
  have hsplit : ts ≠ [] → (joinFields ts).splitOn '&' = ts := by
    induction ts using joinFields.induct with
    | case1 => exact fun hne => absurd rfl hne
    | case2 t => exact fun _ => List.splitOn_eq_singleton (h t List.mem_cons_self).1
    | case3 t ts hne ih =>
      intro _
      rw [joinFields, List.splitOn_append_cons_self_of_not_mem (h t List.mem_cons_self).1]
      · rw [ih (fun u hu => h u (List.mem_cons_of_mem _ hu)) hne]
      · exact hne
  have hfilter : ts.filter (· ≠ []) = ts := List.filter_eq_self.2 fun t ht => decide_eq_true (h t ht).2
  by_cases hnil : ts = []
  · subst hnil; rfl
  · rw [strtokAll, hsplit hnil, hfilter]

theorem escapedField_spec {f : Str × Str} {t : Str} (h : EscapedField f t) :
    '&' ∉ t ∧ t ≠ [] ∧ ∀ c ∈ t, ¬ SNET.ends.isEnd c := by
  obtain ⟨k, d, rfl, hk, hd⟩ := h.text
  have hmem : ∀ c, c ∈ ['&', '\n', '\r', nul] → c ∉ k ++ '=' :: d := by
    intro c hc hm
    have hc' : c ∈ ['&', '=', '\n', '\r', nul] ∧ c ≠ '=' := by
      simp only [List.mem_cons, List.not_mem_nil, or_false] at hc ⊢
      rcases hc with rfl | rfl | rfl | rfl <;> decide
    rcases List.mem_append.1 hm with hm | hm
    · exact not_mem_escapes hk hc'.1 hm
    · exact (List.mem_cons.1 hm).elim hc'.2 (not_mem_escapes hd hc'.1)
  refine ⟨hmem _ (by decide), by simp, fun c hc he => ?_⟩
  rcases he with he | rfl
  · have : c = '\r' ∨ c = nul := by simpa [SNET.ends, isEol, nul] using he
    rcases this with rfl | rfl
    · exact hmem _ (by decide) hc
    · exact hmem _ (by decide) hc
  · exact hmem '\n' (by decide) hc

theorem joinFields_mem {ts : List Str} {c : Char} (hc : c ∈ joinFields ts) : c = '&' ∨ ∃ t ∈ ts, c ∈ t := by
  induction ts using joinFields.induct with
  | case1 => cases hc
  | case2 t => exact .inr ⟨t, List.mem_cons_self, hc⟩
  | case3 t ts hne ih =>
    rw [joinFields] at hc
    · rcases List.mem_append.1 hc with hc | hc
      · exact .inr ⟨t, List.mem_cons_self, hc⟩
      · rcases List.mem_cons.1 hc with rfl | hc
        · exact .inl rfl
        · refine (ih hc).imp id fun hu => ?_
          obtain ⟨u, hu, hcu⟩ := hu
          exact ⟨u, List.mem_cons_of_mem _ hu, hcu⟩
    · exact hne

/-- A form that a browser posts, in whatever way it escapes it, is read as it
was filled in: `cgi_post` succeeds, and each key of the table has the data of the
last field with that key. -/
theorem form_read_back {fs : List (Str × Str)} {ts : List Str} (h : List.Forall₂ EscapedField fs ts) (hne : fs ≠ [])
    (method rest : Str) (hm : strcaseeq method "POST".toList = true) (hrest : rest = [] ∨ ∃ r, rest = '\r' :: r)
    (cl : CgiList) :
    cgiPost ⟨some method, some formType, joinFields ts ++ rest⟩ cl = (true, fs.foldl CgiList.set cl) := by
  have hfield : ∀ t ∈ ts, '&' ∉ t ∧ t ≠ [] ∧ ∀ c ∈ t, ¬ SNET.ends.isEnd c := by
    intro t ht
    obtain ⟨i, hi, rfl⟩ := List.getElem_of_mem ht
    have hlen : i < fs.length := by rw [h.length_eq]; exact hi
    exact escapedField_spec ((List.forall₂_iff_get.1 h).2 i hlen hi)
  have hclean : ∀ c ∈ joinFields ts, ¬ SNET.ends.isEnd c := by
    intro c hc
    rcases joinFields_mem hc with rfl | ⟨t, ht, hct⟩
    · simp [LineEnds.isEnd, SNET.ends, isEol]
    · exact (hfield t ht).2.2 c hct
  have hcut : ∃ r, SNET.ends.cutLine (joinFields ts ++ rest) = some (joinFields ts, r) := by
    rcases hrest with rfl | ⟨r, rfl⟩
    · refine ⟨[], ?_⟩
      rw [List.append_nil]
      refine SNET.ends.cutLine_rest hclean ?_
      intro h0
      cases h with
      | nil => exact hne rfl
      | @cons f t fs ts hf hrest =>
        have ht := (escapedField_spec hf).2.1
        cases ts with
        | nil => exact ht h0
        | cons u us =>
          have hjoin : joinFields (t :: u :: us) = t ++ '&' :: joinFields (u :: us) := rfl
          rw [hjoin] at h0
          simp at h0
    · exact ⟨_, SNET.ends.cutLine_cr hclean rfl r⟩
  obtain ⟨r, hcut⟩ := hcut
  simp only [cgiPost, hcut, hm, decide_true, Bool.and_self, if_true]
  rw [cgiQuerystring, strtok_join fun t ht => ⟨(hfield t ht).1, (hfield t ht).2.1⟩, cgiFields_escaped h]

theorem verify_escaped : EscapedField ("verify".toList, "Log Out".toList) "%76erify=Log+O%75t".toList where
  text := ⟨"%76erify".toList, "Log+O%75t".toList, by decide,
    .hex (x := 7) (y := 6) rfl rfl rfl (.plain (by decide) (.plain (by decide) (.plain (by decide) (.plain (by decide)
      (.plain (by decide) .nil))))),
    .plain (by decide) (.plain (by decide) (.plain (by decide) (.blank (.plain (by decide)
      (.hex (x := 7) (y := 5) rfl rfl rfl (.plain (by decide) .nil))))))⟩
  string := by decide

theorem verify_read_back :
    cgiPost ⟨some "post".toList, some formType, joinFields ["%76erify=Log+O%75t".toList] ++ "\r\n".toList⟩
      [("verify".toList, none), ("url".toList, none)] =
        (true, [("verify".toList, some "Log Out".toList), ("url".toList, none)]) :=
  form_read_back (.cons verify_escaped .nil) (by decide) "post".toList "\r\n".toList (by decide) (.inr ⟨_, rfl⟩) _

end Cosign
