import Cosign.Daemon.Login
/-!
# Records read back

`read_cookie` on what `f_login` writes: the fields come back as they were,
unless one overruns its buffer. The state and the time of a record are those
of the file, so `chmod` and `utime` change nothing else.
-/

namespace Cosign

open Lib

/-! ## Lines -/

theorem fgetsAll_line {n k : Nat} {l : Str} (s : Str) (hl : '\n' ∉ l) (hn : l.length < n) :
    fgetsAll n (k + 1) (l ++ '\n' :: s) = (l ++ ['\n']) :: fgetsAll n k s := by
  rw [fgetsAll, fgets_line s hl hn]
  split
  · rename_i h; simp at h
  · rename_i h; cases h; rfl

theorem fgetsAll_nil (n k : Nat) : fgetsAll n k [] = [] := by
  cases k with
  | zero => rfl
  | succ k => cases n <;> rfl

theorem fgets_shrinks {n : Nat} {s l r : Str} (h : fgets n s = (l, r)) (hne : l ≠ []) : r.length < s.length := by
  cases n with
  | zero => cases h; exact absurd rfl hne
  | succ n =>
    cases s with
    | nil => cases h; exact absurd rfl hne
    | cons c s =>
      have := fgets_length n s
      simp only [fgets] at h
      split at h <;> cases h <;> simp only [List.length_cons] <;> omega

/-- More rounds than characters change nothing. -/
theorem fgetsAll_fuel {n : Nat} (s : Str) {k j : Nat} (hk : s.length < k) (hj : s.length < j) :
    fgetsAll n k s = fgetsAll n j s := by
  induction k generalizing s j with
  | zero => omega
  | succ k ih =>
    obtain ⟨j, rfl⟩ : ∃ i, j = i + 1 := ⟨j - 1, by omega⟩
    rw [fgetsAll, fgetsAll]
    split
    · rfl
    · rename_i l r hne h
      have := fgets_shrinks h hne
      rw [ih r (j := j) (by omega) (by omega)]

theorem fgetsAll_field {n k : Nat} {c : Char} {v s : Str} (hc : c ≠ '\n') (hv : '\n' ∉ v) (hn : v.length + 1 < n)
    (hk : v.length + s.length + 2 < k) :
    fgetsAll n k (fieldLine c v ++ s) = fieldLine c v :: fgetsAll n (s.length + 1) s := by
  obtain ⟨k, rfl⟩ : ∃ i, k = i + 1 := ⟨k - 1, by omega⟩
  have hl : '\n' ∉ c :: v := by simp [hv, Ne.symm hc]
  have := fgetsAll_line (k := k) s hl (by simpa using hn)
  simp only [fieldLine, List.cons_append, List.append_assoc, List.nil_append] at this ⊢
  rw [this, fgetsAll_fuel s (by omega) (Nat.lt_succ_self _)]

/-! ## Fields -/

theorem cookieFields_field (ci : Cinfo) (c : Char) (v : Str) (ls : List Str) :
    cookieFields ci (fieldLine c v :: ls) =
      match storeField ci (c :: v) with
      | .unknown => some (-1, ci)
      | .overrun => none
      | .stored ci => cookieFields ci ls := by
  have h1 : (fieldLine c v).getLast? = some '\n' := by simp [fieldLine, List.getLast?_cons]
  have h2 : (fieldLine c v).dropLast = c :: v := by
    simp only [fieldLine, ← List.cons_append, List.dropLast_concat]
  cases h3 : storeField ci (c :: v) <;>
    simp only [cookieFields, h1, h2, h3, ne_eq, not_true_eq_false, if_false]

/-- What `fstat` puts into the record: the state and the time. -/
def Cinfo.stat (ci : Cinfo) (st m : Nat) : Cinfo := { ci with state := st, itime := m }

theorem Field.put_stat (f : Field) (ci : Cinfo) (v : Str) (st m : Nat) :
    f.put (ci.stat st m) v = (f.put ci v).stat st m := by
  cases f <;> rfl

theorem storeField_stat (ci : Cinfo) (st m : Nat) (l : Str) :
    storeField (ci.stat st m) l =
      match storeField ci l with
      | .unknown => .unknown
      | .overrun => .overrun
      | .stored ci => .stored (ci.stat st m) := by
  cases l with
  | nil => rfl
  | cons k p =>
    simp only [storeField]
    cases Field.ofKey k with
    | none => rfl
    | some f =>
      by_cases h : p.length < f.size
      · simp [h, Field.put_stat]
      · simp [h]

theorem cookieFields_stat (ci : Cinfo) (st m : Nat) (ls : List Str) :
    cookieFields (ci.stat st m) ls = (cookieFields ci ls).map fun x => (x.1, x.2.stat st m) := by
  induction ls generalizing ci with
  | nil => rfl
  | cons l ls ih =>
    rw [cookieFields, cookieFields]
    split
    · rfl
    · rw [storeField_stat]
      cases h : storeField ci l.dropLast with
      | unknown => rfl
      | overrun => rfl
      | stored ci' => exact ih ci'

/-! ## `read_cookie` on a record -/

@[simp] theorem Cinfo.stat_stat (ci : Cinfo) (st m st' m' : Nat) : (ci.stat st m).stat st' m' = ci.stat st' m' := rfl

theorem fgets_newline (n : Nat) (s : Str) : '\n' ∉ (fgets n s).1.dropLast := by
  induction n, s using fgets.induct with
  | case1 s => simp [fgets]
  | case2 n => simp [fgets]
  | case3 n s => simp [fgets]
  | case4 n c s hc ih =>
    simp only [fgets, hc, if_false]
    cases h : (fgets n s).1 with
    | nil => simp
    | cons d l =>
      rw [h] at ih
      simp [ih, Ne.symm hc]

theorem fgetsAll_newline (n k : Nat) (s : Str) : ∀ l ∈ fgetsAll n k s, '\n' ∉ l.dropLast := by
  induction k generalizing s with
  | zero => simp [fgetsAll]
  | succ k ih =>
    intro l hl
    rw [fgetsAll] at hl
    split at hl
    · simp at hl
    · rename_i l' r _ h
      rcases List.mem_cons.1 hl with rfl | hl
      · have := fgets_newline n s
        rwa [h] at this
      · exact ih r l hl

/-- The first two lines decide whether the others are read. -/
theorem parseCookie_cases (text : Str) :
    (∃ v, ∀ g m, parseCookie ⟨text, g, m⟩ = some (-1, ({ Cinfo.zero with version := v } : Cinfo).stat 0 m)) ∨
      ∃ ls, (∀ l ∈ ls, '\n' ∉ l.dropLast) ∧ ∀ g m, parseCookie ⟨text, g, m⟩ =
        cookieFields (({ Cinfo.zero with version := 2 } : Cinfo).stat (if g then 0 else 1) m) ls := by
  unfold parseCookie
  dsimp only
  split
  · exact .inl ⟨0, fun g m => rfl⟩
  · split
    · rename_i p _
      by_cases hv : atoi p ≠ 2
      · exact .inl ⟨atoi p, fun g m => by simp only [if_pos hv]; rfl⟩
      · by_cases hs : (fgets 3 (fgets 3 text).2).1 = []
        · exact .inl ⟨atoi p, fun g m => by simp only [if_neg hv, if_pos hs]; rfl⟩
        · let rest := (fgets 3 (fgets 3 text).2).2
          refine .inr ⟨fgetsAll (maxPathLen + 1) (rest.length + 1) rest, fgetsAll_newline _ _ _, fun g m => ?_⟩
          simp only [if_neg hv, if_neg hs]
          rw [not_not.1 hv]
          rfl
    · exact .inl ⟨0, fun g m => rfl⟩

/-- The mode and the time of a file decide the state and the time of its
record, and nothing else. -/
theorem parseCookie_stat (text : Str) (g g' : Bool) (m m' : Nat) :
    (parseCookie ⟨text, g, m⟩).map (fun x => (x.1, x.2.stat 0 0)) =
      (parseCookie ⟨text, g', m'⟩).map fun x => (x.1, x.2.stat 0 0) := by
  rcases parseCookie_cases text with ⟨v, h⟩ | ⟨ls, -, h⟩
  · rw [h, h]; rfl
  · rw [h, h, cookieFields_stat, cookieFields_stat, Option.map_map, Option.map_map]
    rfl

theorem parseCookie_fstat {f : File} {rc : Int} {ci : Cinfo} (h : parseCookie f = some (rc, ci)) (hrc : rc ≠ -1) :
    ci.state = (if f.isgid then 0 else 1) ∧ ci.itime = f.mtime := by
  obtain ⟨text, g, m⟩ := f
  rcases parseCookie_cases text with ⟨v, hv⟩ | ⟨ls, -, hls⟩
  · rw [hv] at h
    cases h
    exact absurd rfl hrc
  · rw [hls, cookieFields_stat] at h
    obtain ⟨x, -, hx⟩ := Option.map_eq_some_iff.1 h
    cases hx
    exact ⟨rfl, rfl⟩

theorem parseCookie_ok_stat {text : Str} {g : Bool} {m : Nat} {ci : Cinfo}
    (h : parseCookie ⟨text, g, m⟩ = some (0, ci)) (g' : Bool) (m' : Nat) :
    parseCookie ⟨text, g', m'⟩ = some (0, ci.stat (if g' then 0 else 1) m') := by
  have hs := parseCookie_stat text g g' m m'
  rw [h] at hs
  obtain ⟨⟨rc, ci'⟩, hx, he⟩ := Option.map_eq_some_iff.1 hs.symm
  simp only [Prod.mk.injEq] at he
  obtain ⟨rfl, he⟩ := he
  obtain ⟨h1, h2⟩ := parseCookie_fstat hx (by decide)
  have : ci' = (ci'.stat 0 0).stat ci'.state ci'.itime := rfl
  rw [hx, this, he, h1, h2]
  rfl

theorem cookieFields_rc {ci : Cinfo} {ls : List Str} {rc : Int} {ci' : Cinfo}
    (h : cookieFields ci ls = some (rc, ci')) : rc = 0 ∨ rc = -1 := by
  induction ls generalizing ci with
  | nil => cases h; exact .inl rfl
  | cons l ls ih =>
    rw [cookieFields] at h
    split at h
    · cases h; exact .inr rfl
    · split at h
      · cases h; exact .inr rfl
      · cases h
      · exact ih h

theorem parseCookie_codes {f : File} {rc : Int} {ci : Cinfo} (h : parseCookie f = some (rc, ci)) :
    rc = 0 ∨ rc = -1 := by
  obtain ⟨text, g, m⟩ := f
  rcases parseCookie_cases text with ⟨v, hv⟩ | ⟨ls, -, hls⟩
  · rw [hv] at h; cases h; exact .inr rfl
  · rw [hls] at h; exact cookieFields_rc h

/-! ## What a field holds -/

/-- Every field fits its buffer and has no newline in it. -/
def Cinfo.Clean (ci : Cinfo) : Prop := ∀ f : Field, '\n' ∉ f.get ci ∧ (f.get ci).length < f.size

theorem cookieFields_clean {ci : Cinfo} (hci : ci.Clean) {ls : List Str} (hls : ∀ l ∈ ls, '\n' ∉ l.dropLast)
    {rc : Int} {ci' : Cinfo} (h : cookieFields ci ls = some (rc, ci')) : ci'.Clean := by
  induction ls generalizing ci with
  | nil => cases h; exact hci
  | cons l ls ih =>
    rw [cookieFields] at h
    split at h
    · cases h; exact hci
    · split at h
      · cases h; exact hci
      · cases h
      · rename_i ci'' hst
        refine ih ?_ (fun l' hl' => hls l' (List.mem_cons_of_mem _ hl')) h
        cases hd : l.dropLast with
        | nil => rw [hd] at hst; cases hst
        | cons k p =>
          have hnl := hls l List.mem_cons_self
          rw [hd] at hnl hst
          simp only [storeField] at hst
          split at hst
          · cases hst
          · split at hst
            · rename_i f _ hp
              cases hst
              intro g
              rw [Field.get_put]
              split
              · rename_i hg
                subst hg
                exact ⟨fun hc => hnl (List.mem_cons_of_mem _ hc), hp⟩
              · exact hci g
            · cases hst

theorem parseCookie_clean {f : File} {rc : Int} {ci : Cinfo} (h : parseCookie f = some (rc, ci)) : ci.Clean := by
  have hz : ∀ v st m, (({ Cinfo.zero with version := v } : Cinfo).stat st m).Clean := by
    intro v st m g
    cases g <;> simp [Field.get, Cinfo.stat, Cinfo.zero, Field.size, maxPathLen]
  obtain ⟨text, g, m⟩ := f
  rcases parseCookie_cases text with ⟨v, hv⟩ | ⟨ls, hnl, hls⟩
  · rw [hv] at h; cases h; exact hz _ _ _
  · rw [hls] at h; exact cookieFields_clean (hz _ _ _) hnl h

/-! ## What `f_login` writes -/

/-- The sizes `f_login` checks or has from a record it read. -/
structure Written (ip ipCur user : Str) (factors : List Str) (tkt : Option Str) : Prop where
  ip : '\n' ∉ ip ∧ ip.length < 256
  ipCur : '\n' ∉ ipCur ∧ ipCur.length < 256
  user : '\n' ∉ user ∧ user.length < 130
  factors : ∀ w ∈ factors, IsWord w
  tkt : ∀ k, tkt = some k → '\n' ∉ k ∧ k.length < maxPathLen

theorem dec_no_newline (n : Nat) : '\n' ∉ dec n := fun h => by
  have := dec_isDigit n _ h
  simp at this

/-- The lines after version and state. -/
theorem parseCookie_v2 (rest : Str) (g : Bool) (m : Nat) :
    parseCookie ⟨fieldLine 'v' ['2'] ++ (fieldLine 's' ['1'] ++ rest), g, m⟩ =
      cookieFields (({ Cinfo.zero with version := 2 } : Cinfo).stat (if g then 0 else 1) m)
        (fgetsAll (maxPathLen + 1) (rest.length + 1) rest) := by
  have h1 : ∀ c d s, c ≠ '\n' → d ≠ '\n' → fgets 3 (fieldLine c [d] ++ s) = (fieldLine c [d], s) := by
    intro c d s hc hd
    simp [fieldLine, fgets, hc, hd]
  simp only [parseCookie, h1 'v' '2' _ (by decide) (by decide), h1 's' '1' _ (by decide) (by decide)]
  rfl

/-- One line of a record. -/
theorem cookieFields_key {ci : Cinfo} {k : Char} {f : Field} {v s : Str} (hk : Field.ofKey k = some f)
    (hv : '\n' ∉ v) (hl : v.length < maxPathLen) :
    cookieFields ci (fgetsAll (maxPathLen + 1) ((fieldLine k v ++ s).length + 1) (fieldLine k v ++ s)) =
      if v.length < f.size then cookieFields (f.put ci v) (fgetsAll (maxPathLen + 1) (s.length + 1) s) else none := by
  have hkn : k ≠ '\n' := by rintro rfl; simp [Field.ofKey] at hk
  have hj : v.length + s.length + 2 < (fieldLine k v ++ s).length + 1 := by
    simp only [fieldLine, List.length_append, List.length_cons, List.length_nil]; omega
  rw [fgetsAll_field hkn hv (by omega) hj, cookieFields_field]
  by_cases hlt : v.length < f.size <;> simp [storeField, hk, hlt]

theorem Field.size_le (f : Field) : f.size ≤ maxPathLen := by cases f <;> simp [Field.size, maxPathLen]

/-- The record up to the factors. -/
theorem parseCookie_recordText_head {ip ipCur user : Str} {factors : List Str} {t : Nat} {tkt : Option Str}
    (hw : Written ip ipCur user factors tkt) (g : Bool) (m : Nat) :
    let rest := fieldLine 'r' (unwords factors) ++ (fieldLine 't' (dec t) ++ ticketLine tkt)
    parseCookie ⟨recordText ip ipCur user factors t tkt, g, m⟩ =
      cookieFields ⟨2, if g then 0 else 1, ip, ipCur, user, [], [], [], m⟩
        (fgetsAll (maxPathLen + 1) (rest.length + 1) rest) := by
  have hi : ip.length < Field.ipaddr.size := hw.ip.2
  have hj : ipCur.length < Field.ipaddrCur.size := hw.ipCur.2
  have hp : user.length < Field.user.size := hw.user.2
  simp only [recordText, List.append_assoc]
  rw [parseCookie_v2,
    cookieFields_key (k := 'i') (f := .ipaddr) (by decide) hw.ip.1 (Nat.lt_of_lt_of_le hi (Field.size_le _)),
    if_pos hi,
    cookieFields_key (k := 'j') (f := .ipaddrCur) (by decide) hw.ipCur.1 (Nat.lt_of_lt_of_le hj (Field.size_le _)),
    if_pos hj,
    cookieFields_key (k := 'p') (f := .user) (by decide) hw.user.1 (Nat.lt_of_lt_of_le hp (Field.size_le _)),
    if_pos hp]
  rfl

/-- The record `f_login` writes reads back as it was written, as long as its
factors fit on one line. Where the factors or the time overrun their buffers
the reader is undefined. -/
theorem parseCookie_recordText {ip ipCur user : Str} {factors : List Str} {t : Nat} {tkt : Option Str}
    (hw : Written ip ipCur user factors tkt) (hf : (unwords factors).length < maxPathLen)
    (ht : (dec t).length < maxPathLen) (g : Bool) (m : Nat) :
    parseCookie ⟨recordText ip ipCur user factors t tkt, g, m⟩ =
      if (unwords factors).length < 256 ∧ (dec t).length < 12 then
        some (0, ⟨2, if g then 0 else 1, ip, ipCur, user, unwords factors, dec t, tkt.getD [], m⟩)
      else none := by
  rw [parseCookie_recordText_head hw,
    cookieFields_key (k := 'r') (f := .realm) (by decide) (unwords_no_newline hw.factors) hf]
  by_cases h1 : (unwords factors).length < Field.realm.size
  · rw [if_pos h1, cookieFields_key (k := 't') (f := .ctime) (by decide) (dec_no_newline t) ht]
    by_cases h2 : (dec t).length < Field.ctime.size
    · have h12 : (unwords factors).length < 256 ∧ (dec t).length < 12 := ⟨h1, h2⟩
      rw [if_pos h2, if_pos h12]
      cases tkt with
      | none => simp [ticketLine, fgetsAll_nil, cookieFields, Field.put]
      | some k =>
        have hk : '\n' ∉ k ∧ k.length < Field.krbtkt.size := hw.tkt k rfl
        have hkey := fun c => @cookieFields_key c 'k' .krbtkt k [] (by decide) hk.1 hk.2
        simp only [List.append_nil] at hkey
        rw [ticketLine, hkey, if_pos hk.2]
        simp [fgetsAll_nil, cookieFields, Field.put]
    · rw [if_neg h2, if_neg fun h => h2 h.2]
  · rw [if_neg h1, if_neg fun h => h1 h.1]

theorem fgets_long {n : Nat} {l : Str} (s : Str) (hl : '\n' ∉ l) (hn : n ≤ l.length) :
    (fgets n (l ++ s)).1 = l.take n := by
  induction n generalizing l with
  | zero => simp [fgets]
  | succ n ih =>
    obtain ⟨c, l, rfl⟩ := List.exists_cons_of_length_pos (l := l) (by omega)
    have hc : c ≠ '\n' := fun he => hl (he ▸ List.mem_cons_self)
    have := ih (l := l) (fun h => hl (List.mem_cons_of_mem _ h)) (by simpa using hn)
    simp [fgets, hc, this]

/-- A line that does not fit is an error. -/
theorem cookieFields_long {ci : Cinfo} {k : Char} {v s : Str} (hk : k ≠ '\n') (hv : '\n' ∉ v)
    (hl : maxPathLen ≤ v.length) (j : Nat) :
    cookieFields ci (fgetsAll (maxPathLen + 1) (j + 1) (fieldLine k v ++ s)) = some (-1, ci) := by
  have hkv : '\n' ∉ k :: v := by simp [hv, Ne.symm hk]
  have h1 : (fgets (maxPathLen + 1) (fieldLine k v ++ s)).1 = (k :: v).take (maxPathLen + 1) := by
    have := fgets_long ('\n' :: s) hkv (n := maxPathLen + 1) (by simpa using hl)
    simpa [fieldLine] using this
  rw [fgetsAll]
  split
  · rename_i h; rw [h] at h1; simp at h1
  · rename_i l r _ h
    have hlt : l = (k :: v).take (maxPathLen + 1) := by rw [← h1, h]
    have hlast : l.getLast? ≠ some '\n' := by
      intro hc
      have hm : '\n' ∈ l := List.mem_of_getLast? hc
      rw [hlt] at hm
      exact hkv (List.mem_of_mem_take hm)
    rw [cookieFields, if_pos hlast]

/-- A record that can be read has lines that fit. -/
theorem recordText_fits {ip ipCur user : Str} {factors : List Str} {t : Nat} {tkt : Option Str} {g : Bool} {m : Nat}
    {ci : Cinfo} (hw : Written ip ipCur user factors tkt)
    (h : parseCookie ⟨recordText ip ipCur user factors t tkt, g, m⟩ = some (0, ci)) :
    (unwords factors).length < maxPathLen ∧ (dec t).length < maxPathLen := by
  rw [parseCookie_recordText_head hw] at h
  by_cases h1 : maxPathLen ≤ (unwords factors).length
  · rw [cookieFields_long (by decide) (unwords_no_newline hw.factors) h1] at h
    cases h
  · refine ⟨by omega, ?_⟩
    by_contra h2
    rw [cookieFields_key (k := 'r') (f := .realm) (by decide) (unwords_no_newline hw.factors) (by omega)] at h
    split at h
    · rw [cookieFields_long (by decide) (dec_no_newline t) (by omega)] at h
      cases h
    · cases h

/-- What can be read of a record `f_login` wrote. -/
theorem recordText_read {ip ipCur user : Str} {factors : List Str} {t : Nat} {tkt : Option Str} {g : Bool} {m : Nat}
    {ci : Cinfo} (hw : Written ip ipCur user factors tkt)
    (h : parseCookie ⟨recordText ip ipCur user factors t tkt, g, m⟩ = some (0, ci)) :
    ci = ⟨2, if g then 0 else 1, ip, ipCur, user, unwords factors, dec t, tkt.getD [], m⟩ := by
  obtain ⟨hf, ht⟩ := recordText_fits hw h
  rw [parseCookie_recordText hw hf ht] at h
  split at h
  · cases h; rfl
  · cases h

/-- A service cookie's text names its login cookie. -/
theorem parseService_fieldLine {login : Str} (h : '\n' ∉ login) (hl : login.length < maxCookieLen) :
    parseService (fieldLine 'l' login) = some login := by
  have h1 : fgets (maxCookieLen + 1) (fieldLine 'l' login) = (fieldLine 'l' login, []) := by
    simpa [fieldLine] using fgets_line (n := maxCookieLen + 1) (l := 'l' :: login) [] (by simp [h])
      (by simpa using hl)
  have h2 : (fieldLine 'l' login).getLast? = some '\n' := by simp [fieldLine, List.getLast?_cons]
  have h3 : (fieldLine 'l' login).dropLast = 'l' :: login := by
    simp only [fieldLine, ← List.cons_append, List.dropLast_concat]
  simp [parseService, h1, h2, h3]

end Cosign
