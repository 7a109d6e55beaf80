import Cosign.Common.Reload
import Cosign.Lib.Sift
/-!
# The hosts of a configuration

Every `cgi` and `notauth` line makes an entry in the list of hosts, and so does a
`service` line for a host that no earlier one has. Whether an entry goes into the
list is a variable that only `service` lines set, so what one of them leaves in
it decides about the lines up to the next.
-/

namespace Cosign

open Lib

/-! ## The lines about hosts -/

inductive HostLine where
  | cgi (host : Str)
  | notauth (host : Str)
  | service (cookie host : Str)
  deriving DecidableEq

def HostLine.entry : HostLine → Key × Str
  | .cgi host => (.cgi, host)
  | .notauth host => (.notauth, host)
  | .service _ host => (.service, host)

/-- The words of such a line. -/
def hostLine : List Str → Option HostLine
  | [] => none
  | word :: args =>
    if word = "cgi".toList then match args with
      | [host] => some (.cgi host)
      | _ => none
    else if word = "service".toList then match args with
      | [cookie, _, _, host] | [cookie, _, _, host, _] => some (.service cookie host)
      | _ => none
    else if word = "notauth".toList then match args with
      | [host] => some (.notauth host)
      | _ => none
    else none

/-- A line as it is read, with the place of the last `service` line before it in
its own file. -/
structure Placed where
  line : HostLine
  last : Option Nat

def HostLine.nextLast (l : HostLine) (last : Option Nat) (n : Nat) : Option Nat :=
  match l with
  | .service _ _ => some n
  | _ => last

/-- The lines of a file after those read before, `ps`. `incl` places the lines of
another file. -/
def placeLines (incl : Str → List Placed → List Placed) :
    (last : Option Nat) → List Str → List Placed → List Placed
  | _, [], ps => ps
  | last, line :: rest, ps =>
    match hostLine (acavParse line) with
    | some l => placeLines incl (l.nextLast last ps.length) rest (ps ++ [⟨l, last⟩])
    | none =>
      match acavParse line with
      | [word, path] =>
        if word = "include".toList then placeLines incl last rest (incl path ps)
        else placeLines incl last rest ps
      | _ => placeLines incl last rest ps

/-- The lines about hosts in the order in which they are read. -/
def placed (files : Files) : (fds : Nat) → (path : Str) → List Placed → List Placed
  | 0, _, ps => ps
  | fds + 1, path, ps =>
    match files path with
    | none => ps
    | some lines => placeLines (placed files fds) none lines ps

/-! ## What should be in the list, and what is -/

/-- A `service` line among these names the host. -/
def named (ps : List Placed) (host : Str) : Bool := ps.any fun p => p.line.entry = (.service, host)

/-- Line `k` is a `service` line for a host that has one before it. -/
def repeated (ps : List Placed) (k : Nat) : Bool :=
  match ps[k]? with
  | some ⟨.service _ host, _⟩ => named (ps.take k) host
  | _ => false

/-- The lines that have an entry by right. -/
def due (before : List Placed) (p : Placed) : Bool :=
  match p.line with
  | .service _ host => !named before host
  | _ => true

/-- The lines that are given one. -/
def inserted (before : List Placed) (p : Placed) : Bool :=
  match p.line with
  | .service _ host => !named before host
  | _ => !p.last.any (repeated before)

def AuthList.entry (al : AuthList) : Key × Str := (al.key, al.hostname)

def Lists.entries (new : Lists) : List (Key × Str) := new.authlist.map AuthList.entry

/-- What is kept of the services: the cookie and the place of the host. -/
def Lists.links (new : Lists) : List (Str × Nat) := new.servicelist.map fun sl => (sl.cookie, sl.auth)

/-- The cookie and the host of each `service` line. -/
def servicesOf (ps : List Placed) : List (Str × Option (Key × Str)) :=
  ps.filterMap fun p =>
    match p.line with
    | .service cookie host => some (cookie, some (.service, host))
    | _ => none

/-- The lists after these lines. -/
structure ListsMatch (ps : List Placed) (entries : List (Key × Str)) (links : List (Str × Nat)) : Prop where
  hosts : entries = (sift inserted ps).map fun p => p.line.entry
  services : links.map (fun sl => (sl.1, entries[sl.2]?)) = servicesOf ps
  known : ∀ host, (Key.service, host) ∈ entries ↔ named ps host = true

/-- The loop's variable after these lines. -/
structure FlagMatch (ps : List Placed) (last : Option Nat) (insert : Bool) : Prop where
  flag : insert = !last.any (repeated ps)
  within : ∀ k, last = some k → k < ps.length

/-! ## One more line -/

theorem named_concat (ps : List Placed) (p : Placed) (host : Str) :
    named (ps ++ [p]) host = (named ps host || decide (p.line.entry = (.service, host))) := by
  simp [named]

theorem repeated_append {ps : List Placed} {k : Nat} (h : k < ps.length) (more : List Placed) :
    repeated (ps ++ more) k = repeated ps k := by
  unfold repeated
  rw [List.getElem?_append_left h, List.take_append_of_le_length (Nat.le_of_lt h)]

theorem FlagMatch.append {ps : List Placed} {last : Option Nat} {insert : Bool} (h : FlagMatch ps last insert)
    (more : List Placed) : FlagMatch (ps ++ more) last insert := by
  refine ⟨?_, fun k hk => ?_⟩
  · rw [h.flag]
    cases hl : last with
    | none => rfl
    | some k => simp [repeated_append (h.within k hl)]
  · have := h.within k hk
    rw [List.length_append]
    omega

theorem ListsMatch.link {ps : List Placed} {entries : List (Key × Str)} {links : List (Str × Nat)}
    (h : ListsMatch ps entries links) {sl : Str × Nat} (hsl : sl ∈ links) : sl.2 < entries.length := by
  have hm : (sl.1, entries[sl.2]?) ∈ servicesOf ps := by
    rw [← h.services]
    exact List.mem_map_of_mem hsl
  obtain ⟨p, -, hp⟩ := List.mem_filterMap.1 hm
  split at hp
  · have hsome : entries[sl.2]? = some _ := (congrArg Prod.snd (Option.some.inj hp)).symm
    exact (List.getElem?_eq_some_iff.1 hsome).1
  · cases hp

/-- The services keep their hosts when the list grows. -/
theorem ListsMatch.grow {ps : List Placed} {entries : List (Key × Str)} {links : List (Str × Nat)}
    (h : ListsMatch ps entries links) (e : List (Key × Str)) :
    links.map (fun sl => (sl.1, (entries ++ e)[sl.2]?)) = servicesOf ps := by
  rw [← h.services]
  refine List.map_congr_left fun sl hsl => ?_
  rw [List.getElem?_append_left (h.link hsl)]

/-- A `cgi` or `notauth` line. -/
theorem ListsMatch.host {ps : List Placed} {entries : List (Key × Str)} {links : List (Str × Nat)} {last : Option Nat}
    {insert : Bool} {l : HostLine} (h : ListsMatch ps entries links) (hflag : FlagMatch ps last insert)
    (hl : ∀ cookie host, l ≠ .service cookie host) :
    ListsMatch (ps ++ [⟨l, last⟩]) (if insert then entries ++ [l.entry] else entries) links := by
  have hkeep : inserted ps ⟨l, last⟩ = insert := by
    rw [hflag.flag]
    cases l with
    | service cookie host => exact absurd rfl (hl cookie host)
    | _ => rfl
  have hkey : ∀ host, l.entry ≠ (.service, host) := by
    intro host he
    cases l with
    | service cookie h => exact hl cookie h rfl
    | _ => cases he
  have hservices : servicesOf (ps ++ [⟨l, last⟩]) = servicesOf ps := by
    cases l with
    | service cookie host => exact absurd rfl (hl cookie host)
    | _ => simp [servicesOf]
  refine ⟨?_, ?_, fun host => ?_⟩
  · rw [sift_concat, hkeep, h.hosts]
    cases insert <;> simp
  · rw [hservices]
    cases insert with
    | true => exact h.grow _
    | false => exact h.services
  · rw [named_concat, decide_eq_false (hkey host), Bool.or_false, ← h.known host]
    cases insert with
    | true => simp [(hkey host).symm]
    | false => rfl

/-- A `service` line. -/
theorem ListsMatch.service {ps : List Placed} {entries : List (Key × Str)} {links : List (Str × Nat)}
    (h : ListsMatch ps entries links) (cookie host : Str) (last : Option Nat) :
    (∀ i, entries[i]? = some (.service, host) →
      ListsMatch (ps ++ [⟨.service cookie host, last⟩]) entries (links ++ [(cookie, i)])) ∧
    ((Key.service, host) ∉ entries → ListsMatch (ps ++ [⟨.service cookie host, last⟩])
      (entries ++ [(.service, host)]) (links ++ [(cookie, entries.length)])) := by
  have hservices : servicesOf (ps ++ [⟨.service cookie host, last⟩]) =
      servicesOf ps ++ [(cookie, some (.service, host))] := by simp [servicesOf]
  constructor
  · intro i hi
    have hnamed : named ps host = true := (h.known host).1 (List.mem_of_getElem? hi)
    have hkeep : inserted ps ⟨.service cookie host, last⟩ = false := by simp [inserted, hnamed]
    refine ⟨?_, ?_, fun host' => ?_⟩
    · rw [sift_concat, hkeep, h.hosts]
      simp
    · rw [hservices, List.map_append, h.services]
      simp [hi]
    · rw [named_concat, h.known]
      by_cases he : host = host'
      · subst he
        simp [hnamed]
      · simp [HostLine.entry, he]
  · intro hnot
    have hnamed : named ps host = false := by
      rw [← Bool.not_eq_true, ← h.known]
      exact hnot
    have hkeep : inserted ps ⟨.service cookie host, last⟩ = true := by simp [inserted, hnamed]
    refine ⟨?_, ?_, fun host' => ?_⟩
    · rw [sift_concat, hkeep, h.hosts]
      simp [HostLine.entry]
    · rw [hservices, List.map_append, h.grow]
      simp
    · rw [named_concat, List.mem_append, h.known]
      by_cases he : host = host'
      · subst he
        simp [HostLine.entry]
      · simp [HostLine.entry, he, Ne.symm he]

/-! ## The loop over the lines -/

/-- The lists are what the lines make of them. -/
def Built (ps : List Placed) (new : Lists) : Prop := ListsMatch ps new.entries new.links

theorem updateFirst_map {α β : Type} {p : α → Bool} {f : α → α} {g : α → β} {l l' : List α}
    (h : updateFirst p f l = some l') (hg : ∀ a, g (f a) = g a) : l'.map g = l.map g := by
  induction l generalizing l' with
  | nil => cases h
  | cons a l ih =>
    simp only [updateFirst] at h
    split at h
    · cases h
      simp [hg]
    · obtain ⟨m, hm, rfl⟩ := Option.map_eq_some_iff.1 h
      simp [ih hm]

theorem insert_built {ps : List Placed} {new : Lists} {last : Option Nat} {insert : Bool} {l : HostLine}
    (h : Built ps new) (hflag : FlagMatch ps last insert) (hl : ∀ cookie host, l ≠ .service cookie host)
    {al : AuthList} (hal : al.entry = l.entry) : Built (ps ++ [⟨l, last⟩]) (new.insert insert al) := by
  have := h.host hflag hl
  unfold Built
  cases insert with
  | true => simpa [Lists.insert, Lists.entries, Lists.links, hal] using this
  | false => simpa [Lists.insert, Lists.entries, Lists.links] using this

theorem readService_built {ps : List Placed} {new : Lists} (h : Built ps new) (last : Option Nat)
    (cookie wkurl flags host : Str) (sub : Option Str) :
    Built (ps ++ [⟨.service cookie host, last⟩]) (readService new cookie wkurl flags host sub).2 ∧
      (readService new cookie wkurl flags host sub).1 = !named ps host := by
  obtain ⟨hold, hnew⟩ := h.service cookie host last
  unfold readService
  dsimp only
  split
  · rename_i i hi
    obtain ⟨hlt, hp, -⟩ := List.findIdx?_eq_some_iff_getElem.1 hi
    have hentry : new.entries[i]? = some (.service, host) := by
      unfold Lists.entries
      rw [List.getElem?_map, List.getElem?_eq_getElem hlt]
      simpa [AuthList.entry] using hp
    refine ⟨?_, ?_⟩
    · simpa [Built, Lists.entries, Lists.links] using hold i hentry
    · rw [(h.known host).1 (List.mem_of_getElem? hentry)]
      rfl
  · rename_i hnone
    have hnot : (Key.service, host) ∉ new.entries := by
      intro hm
      obtain ⟨al, hal, he⟩ := List.mem_map.1 hm
      have := List.findIdx?_eq_none_iff.1 hnone al hal
      simp only [AuthList.entry, Prod.mk.injEq] at he
      simp [he] at this
    refine ⟨?_, ?_⟩
    · simpa [Built, Lists.entries, Lists.links, AuthList.entry] using hnew hnot
    · have : named ps host = false := by
        rw [← Bool.not_eq_true, ← h.known]
        exact hnot
      rw [this]
      rfl

/-- The words that begin a line about hosts. -/
theorem hostLine_other {word : Str} (args : List Str) (h : word ∉ ["cgi".toList, "service".toList, "notauth".toList]) :
    hostLine (word :: args) = none := by
  simp only [List.mem_cons, List.not_mem_nil, or_false, not_or] at h
  unfold hostLine
  dsimp only
  rw [if_neg h.1, if_neg h.2.1, if_neg h.2.2]

/-- What a line that is accepted does. -/
theorem readListing_built {files : Files} {fds : Nat} {ps : List Placed} {new new' : Lists} {last : Option Nat}
    {insert insert' : Bool} {word : Str} {args : List Str} (h : Built ps new) (hflag : FlagMatch ps last insert)
    (hr : readListing files fds insert new word args = .ok (insert', new')) :
    (∃ l, hostLine (word :: args) = some l ∧ Built (ps ++ [⟨l, last⟩]) new' ∧
      FlagMatch (ps ++ [⟨l, last⟩]) (l.nextLast last ps.length) insert') ∨
    (hostLine (word :: args) = none ∧ Built ps new' ∧ insert' = insert) := by
  have hservice : ∀ cookie wkurl flags host sub, FlagMatch (ps ++ [⟨.service cookie host, last⟩]) (some ps.length)
      (readService new cookie wkurl flags host sub).1 := by
    intro cookie wkurl flags host sub
    refine ⟨?_, fun k hk => ?_⟩
    · rw [(readService_built h last cookie wkurl flags host sub).2]
      simp [repeated]
    · cases hk
      simp
  unfold readListing at hr
  by_cases hset : word = "set".toList
  · rw [if_pos hset] at hr
    subst hset
    split at hr
    · cases hr
      exact .inr ⟨hostLine_other _ (by decide), h, rfl⟩
    · cases hr
  rw [if_neg hset] at hr
  by_cases hreauth : word = "reauth".toList
  · rw [if_pos hreauth] at hr
    subst hreauth
    split at hr
    · cases hr
    split at hr
    · cases hr
    · rename_i servicelist hupdate
      split at hr
      · cases hr
      · cases hr
        have hlinks := updateFirst_map (g := fun sl : Service => (sl.cookie, sl.auth)) hupdate fun _ => rfl
        refine .inr ⟨hostLine_other _ (by decide), ?_, rfl⟩
        unfold Built Lists.links
        rw [hlinks]
        exact h
  rw [if_neg hreauth] at hr
  by_cases hproxy : word = "proxy".toList
  · rw [if_pos hproxy] at hr
    subst hproxy
    split at hr
    · split at hr
      · cases hr
      · split at hr
        · cases hr
        · split at hr
          · cases hr
          · split at hr
            · cases hr
            · rename_i authlist hupdate
              cases hr
              have hentries := updateFirst_map (g := AuthList.entry) hupdate fun _ => rfl
              refine .inr ⟨hostLine_other _ (by decide), ?_, rfl⟩
              unfold Built Lists.entries
              rw [hentries]
              exact h
    · cases hr
  rw [if_neg hproxy] at hr
  by_cases hcgi : word = "cgi".toList
  · rw [if_pos hcgi] at hr
    subst hcgi
    split at hr
    · rename_i host
      cases hr
      exact .inl ⟨.cgi host, rfl, insert_built h hflag (by simp) rfl, hflag.append _⟩
    · cases hr
  rw [if_neg hcgi] at hr
  by_cases hserv : word = "service".toList
  · rw [if_pos hserv] at hr
    subst hserv
    split at hr
    · rename_i cookie wkurl flags host
      have hb := (readService_built h last cookie wkurl flags host none).1
      have hf := hservice cookie wkurl flags host none
      rw [Read.ok.inj hr] at hb hf
      exact .inl ⟨.service cookie host, rfl, hb, hf⟩
    · rename_i cookie wkurl flags host sub
      have hb := (readService_built h last cookie wkurl flags host (some sub)).1
      have hf := hservice cookie wkurl flags host (some sub)
      rw [Read.ok.inj hr] at hb hf
      exact .inl ⟨.service cookie host, rfl, hb, hf⟩
    · cases hr
  rw [if_neg hserv] at hr
  by_cases hnotauth : word = "notauth".toList
  · rw [if_pos hnotauth] at hr
    subst hnotauth
    split at hr
    · rename_i host
      cases hr
      exact .inl ⟨.notauth host, rfl, insert_built h hflag (by simp) rfl, hflag.append _⟩
    · cases hr
  rw [if_neg hnotauth] at hr
  cases hr

/-- Lines are only added. -/
theorem placeLines_append {incl : Str → List Placed → List Placed} (hincl : ∀ path ps, ∃ more, incl path ps = ps ++ more)
    (last : Option Nat) (lines : List Str) (ps : List Placed) : ∃ more, placeLines incl last lines ps = ps ++ more := by
  induction lines generalizing last ps with
  | nil => exact ⟨[], by simp [placeLines]⟩
  | cons line rest ih =>
    rw [placeLines]
    split
    · obtain ⟨more, hm⟩ := ih _ _
      exact ⟨_, hm.trans (List.append_assoc ..)⟩
    · split
      · split
        · obtain ⟨more, hm⟩ := hincl _ ps
          obtain ⟨more', hm'⟩ := ih last (ps ++ more)
          rw [hm]
          exact ⟨_, hm'.trans (List.append_assoc ..)⟩
        · exact ih _ _
      · exact ih _ _

theorem placed_append (files : Files) (fds : Nat) (path : Str) (ps : List Placed) :
    ∃ more, placed files fds path ps = ps ++ more := by
  induction fds generalizing path ps with
  | zero => exact ⟨[], by simp [placed]⟩
  | succ fds ih =>
    rw [placed]
    split
    · exact ⟨[], by simp⟩
    · exact placeLines_append ih _ _ _

theorem placeLines_skip {incl : Str → List Placed → List Placed} {last : Option Nat} {line : Str} {rest : List Str}
    {ps : List Placed} (hnone : hostLine (acavParse line) = none)
    (hinc : ∀ path, acavParse line ≠ ["include".toList, path]) :
    placeLines incl last (line :: rest) ps = placeLines incl last rest ps := by
  rw [placeLines, hnone]
  dsimp only
  split
  · rename_i word path hline
    rw [if_neg]
    rintro rfl
    exact hinc path hline
  · rfl

theorem not_include {line word : Str} {args : List Str} (hline : acavParse line = word :: args)
    (h : word ≠ "include".toList) (path : Str) : acavParse line ≠ ["include".toList, path] :=
  fun he => h (List.cons.inj (hline.symm.trans he)).1

theorem configLines_built {files : Files} {fds : Nat} {incl : Str → Lists → Settings → Loaded}
    {inclPlaced : Str → List Placed → List Placed} (happend : ∀ path ps, ∃ more, inclPlaced path ps = ps ++ more)
    (hincl : ∀ path ps new g new' g', Built ps new → incl path new g = .ok new' g' → Built (inclPlaced path ps) new')
    {lines : List Str} {insert : Bool} {last : Option Nat} {ps : List Placed} {new new' : Lists} {g g' : Settings}
    (h : Built ps new) (hflag : FlagMatch ps last insert)
    (hr : configLines files fds incl insert lines new g = .ok new' g') :
    Built (placeLines inclPlaced last lines ps) new' := by
  induction lines generalizing insert last ps new g with
  | nil =>
    cases hr
    exact h
  | cons line rest ih =>
    rw [configLines] at hr
    cases hline : acavParse line with
    | nil =>
      rw [hline] at hr
      rw [placeLines_skip (by rw [hline]; rfl) (by simp [hline])]
      exact ih h hflag hr
    | cons word args =>
      rw [hline] at hr
      dsimp only at hr
      by_cases hhash : word.head? = some '#'
      · -- no keyword begins with the comment sign
        rw [if_pos hhash] at hr
        have hword : word ∉ ["cgi".toList, "service".toList, "notauth".toList] ∧ word ≠ "include".toList := by
          refine ⟨fun hm => ?_, (not_keyword_of_comment hhash).2⟩
          simp only [List.mem_cons, List.not_mem_nil, or_false] at hm
          rcases hm with rfl | rfl | rfl <;> cases hhash
        rw [placeLines_skip (by rw [hline]; exact hostLine_other args hword.1) (not_include hline hword.2)]
        exact ih h hflag hr
      rw [if_neg hhash] at hr
      by_cases hinc : word = "include".toList
      · rw [if_pos hinc] at hr
        subst hinc
        have hnone : hostLine (acavParse line) = none := by
          rw [hline]
          exact hostLine_other args (by decide)
        cases args with
        | nil =>
          rw [placeLines_skip hnone (by simp [hline])]
          exact ih h hflag hr
        | cons path more =>
          cases more with
          | cons _ _ =>
            rw [placeLines_skip hnone (by simp [hline])]
            exact ih h hflag hr
          | nil =>
            dsimp only at hr
            cases hsub : incl path new g with
            | ok new₁ g₁ =>
              -- the other file has a variable of its own, so this file's is as it was
              rw [hsub] at hr
              obtain ⟨more, hmore⟩ := happend path ps
              have hb := hincl path ps new g new₁ g₁ h hsub
              rw [placeLines, hnone, hline]
              dsimp only
              rw [if_pos rfl]
              rw [hmore] at hb ⊢
              exact ih hb (hflag.append more) hr
            | failed g₁ => rw [hsub] at hr; cases hr
            | fault => rw [hsub] at hr; cases hr
      rw [if_neg hinc] at hr
      cases hs : parseSetting word args with
      | some r =>
        have hword : word ∈ settingKeywords := by
          by_contra hno
          rw [parseSetting_eq_none.2 hno] at hs
          cases hs
        have hother : word ∉ ["cgi".toList, "service".toList, "notauth".toList] := by
          intro hm
          simp only [List.mem_cons, List.not_mem_nil, or_false] at hm
          rcases hm with rfl | rfl | rfl <;> revert hword <;> decide
        rw [hs] at hr
        rw [placeLines_skip (by rw [hline]; exact hostLine_other args hother) (not_include hline hinc)]
        cases r with
        | ok x =>
          dsimp only at hr
          split at hr
          · exact ih h hflag hr
          · cases hr
        | failed => cases hr
        | fault => cases hr
      | none =>
        rw [hs] at hr
        dsimp only at hr
        cases hl : readListing files fds insert new word args with
        | ok x =>
          obtain ⟨insert₁, new₁⟩ := x
          rw [hl] at hr
          rcases readListing_built h hflag hl with ⟨l, hsome, hb, hf⟩ | ⟨hnone, hb, rfl⟩
          · rw [placeLines, hline, hsome]
            exact ih hb hf hr
          · rw [placeLines_skip (by rw [hline]; exact hnone) (not_include hline hinc)]
            exact ih hb hflag hr
        | failed => rw [hl] at hr; cases hr
        | fault => rw [hl] at hr; cases hr

theorem readConfig_built {files : Files} {fds : Nat} {path : Str} {ps : List Placed} {new new' : Lists}
    {g g' : Settings} (h : Built ps new) (hr : readConfig files fds path new g = .ok new' g') :
    Built (placed files fds path ps) new' := by
  induction fds generalizing path ps new g new' g' with
  | zero => cases hr
  | succ fds ih =>
    rw [readConfig] at hr
    rw [placed]
    cases hlines : files path with
    | none =>
      rw [hlines] at hr
      cases hr
    | some lines =>
      rw [hlines] at hr
      exact configLines_built (placed_append files fds) (fun path ps new g new' g' => ih) h
        ⟨rfl, fun k hk => by cases hk⟩ hr

/-! ## An accepted configuration -/

/-- The list has the entries that are due, in their order, and every service has
the entry of its own host. -/
structure HostsKept (ps : List Placed) (new : Lists) : Prop where
  hosts : new.entries = (sift due ps).map fun p => p.line.entry
  services : new.links.map (fun sl => (sl.1, new.entries[sl.2]?)) = servicesOf ps

/-- No `cgi` and no `notauth` line comes after a repeated `service` line, with
none in between, in its own file. -/
def NoneDropped (ps : List Placed) : Prop :=
  ∀ ys p zs, ps = ys ++ p :: zs → (∀ cookie host, p.line ≠ .service cookie host) →
    ∀ k, p.last = some k → repeated ys k = false

theorem inserted_due (before : List Placed) (p : Placed) (h : inserted before p = true) : due before p = true := by
  obtain ⟨line, last⟩ := p
  cases line with
  | service cookie host => exact h
  | cgi host => rfl
  | notauth host => rfl

theorem due_inserted {before : List Placed} {p : Placed} : (due before p = true → inserted before p = true) ↔
    ((∀ cookie host, p.line ≠ .service cookie host) → ∀ k, p.last = some k → repeated before k = false) := by
  obtain ⟨line, last⟩ := p
  have hany : (!last.any (repeated before)) = true ↔ ∀ k, last = some k → repeated before k = false := by
    cases last <;> simp
  cases line with
  | service cookie host => exact ⟨fun _ h => absurd rfl (h cookie host), fun _ h => h⟩
  | cgi host => exact ⟨fun h _ => hany.1 (h rfl), fun h _ => hany.2 (h (by simp))⟩
  | notauth host => exact ⟨fun h _ => hany.1 (h rfl), fun h _ => hany.2 (h (by simp))⟩

/-- No host is lost just when none comes after a repeated service. -/
theorem hosts_kept_iff {files : Files} {fds : Nat} {path : Str} {g g' : Conf}
    (h : cosignConfig files fds path g = .loaded g') :
    HostsKept (placed files fds path []) g'.lists ↔ NoneDropped (placed files fds path []) := by
  have hempty : Built [] .empty := ⟨rfl, rfl, fun host => by simp [Lists.empty, Lists.entries, named]⟩
  have hb := readConfig_built hempty (cosignConfig_loaded h)
  have hagree : (g'.lists.entries = (sift due (placed files fds path [])).map fun p => p.line.entry) ↔
      NoneDropped (placed files fds path []) := by
    rw [hb.hosts, sift_map_eq_iff _ inserted_due]
    exact forall_congr' fun ys => forall_congr' fun p => forall_congr' fun zs =>
      imp_congr_right fun _ => due_inserted
  constructor
  · exact fun hk => hagree.1 hk.hosts
  · exact fun hn => ⟨hagree.2 hn, hb.services⟩

/-! ## Two configurations -/

def wikiLines : List String := ["service cosign-wiki https://wiki/valid 2 wiki", "cgi weblogin"]

def twiceLines : List String :=
  ["service cosign-wiki https://wiki/valid 2 wiki", "service cosign-list https://list/valid 2 wiki", "cgi weblogin"]

/-- The second service of the host takes away the login server's entry. -/
theorem hosts_lost : ¬ ∀ (files : Files) (fds : Nat) (path : Str) (g g' : Conf),
    cosignConfig files fds path g = .loaded g' → HostsKept (placed files fds path []) g'.lists := by
  intro h
  have hload : ∃ g', cosignConfig (oneFile twiceLines) 1 "cosign.conf".toList .empty = .loaded g' ∧
      g'.lists.entries.length = 1 := ⟨_, rfl, rfl⟩
  obtain ⟨g', hload, hone⟩ := hload
  rw [(h _ _ _ _ _ hload).hosts] at hone
  have htwo : ((sift due (placed (oneFile twiceLines) 1 "cosign.conf".toList [])).map fun p => p.line.entry).length = 2 := rfl
  omega

theorem hosts_kept_wiki : ∃ g', cosignConfig (oneFile wikiLines) 1 "cosign.conf".toList .empty = .loaded g' ∧
    HostsKept (placed (oneFile wikiLines) 1 "cosign.conf".toList []) g'.lists := by
  have hload : ∃ g', cosignConfig (oneFile wikiLines) 1 "cosign.conf".toList .empty = .loaded g' := ⟨_, rfl⟩
  obtain ⟨g', hload⟩ := hload
  refine ⟨g', hload, (hosts_kept_iff hload).2 ?_⟩
  intro ys p zs he _ k hk
  have hlines : placed (oneFile wikiLines) 1 "cosign.conf".toList [] =
      [⟨.service "cosign-wiki".toList "wiki".toList, none⟩, ⟨.cgi "weblogin".toList, some 0⟩] := rfl
  rw [hlines] at he
  match ys with
  | [] =>
    cases he
    cases hk
  | [_] =>
    cases he
    cases hk
    rfl
  | _ :: _ :: ys =>
    have := congrArg List.length he
    simp at this

end Cosign
