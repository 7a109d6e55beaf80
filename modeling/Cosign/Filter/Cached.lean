import Cosign.Filter.Latency
/-!
# Required factors and the record

A record is written with the protocol of the connection, and `read_scookie`
reads back no protocol but 2. For a record of protocol 3 the factors are
therefore not looked at.
-/

namespace Cosign.Filter

open Lib

section
variable {cfg : HostConfig} {cookie ipaddr path : Str} {si : Sinfo} {w : World}

/-- A record as the filter writes it, from an answer of a server that knows
factors. -/
structure StoredFrom (si : Sinfo) (f : SFile) : Prop where
  fits : si.Fits
  text : f.text = recordText si
  factors : supportsFactors si.protocol

/-- Where no server is heard, the answer is the record's. -/
theorem offline_record {n : Nat} {wants : Bool} {cl : List Conn} {ev v w'}
    (h : Prog.Goes filterStep (cookieValid n cfg cookie (if wants then some none else none) ipaddr cl) w ev (some v) w')
    (hoff : w'.heard = w.heard) (hok : v.rc = .ok) :
    ∃ path f lsi, pathOf cfg cookie = some path ∧ w.files path = some f ∧ f.info = some (0, lsi) ∧
      (cfg.checkip = .always → ipaddr = lsi.ipaddr) ∧
      (supportsFactors lsi.protocol → ∀ f ∈ cfg.reqfv, f ∈ acavParse lsi.factor) := by
  have hmade : Call.Made ⟨cfg, cookie, wants, ipaddr, w, v, w'⟩ := ⟨n, cl, ev, h⟩
  obtain ⟨tv, -, hpost⟩ := hmade.spec
  have hnone : Call.answers ⟨cfg, cookie, wants, ipaddr, w, v, w'⟩ = [] := by
    simp only [Call.answers, hoff, List.drop_length]
  rcases hpost.effect with ⟨-, heffect⟩ | ⟨-, -, a, p, f, htold, -⟩
  · rcases heffect hok with ⟨p, f, lsi, habout, hf, hinfo, -, -, hip, hfactors⟩ | ⟨a, htold⟩
    · rcases habout with hp | ⟨a, ha, -⟩
      · exact ⟨p, f, lsi, hp, hf, hinfo, hip, hfactors⟩
      · exact absurd (hnone ▸ ha) List.not_mem_nil
    · exact absurd (hnone ▸ htold.mem) List.not_mem_nil
  · exact absurd (hnone ▸ htold.mem) List.not_mem_nil

/-- The call that answers from a young record. -/
theorem record_run {lsi si₁ si₂ : Sinfo} {f : SFile} (hpath : pathOf cfg cookie = some path) (hf : w.files path = some f)
    (hinfo : f.info = some (0, lsi)) (hyoung : fresh w.clock lsi) (hcached : cached cfg ipaddr .zero lsi = (si₁, some si₂)) :
    ∃ v ev, Prog.Goes filterStep (cookieValid 1 cfg cookie none ipaddr []) w ev (some v) w ∧ v.rc = .ok := by
  have hscookie : readScookie (.file f.text f.mtime) = some (0, lsi) := hinfo
  have hopen : mkcookiepath (some cfg.filterdb) cfg.hashlen cookie maxPathLen = some path := hpath
  have hrun : Prog.run (play fun _ _ => none) (cookieValid 1 cfg cookie none ipaddr []) w =
      some (⟨.ok, none, si₂, []⟩, w) := by
    simp [cookieValid, fCall, play, hopen, retry, hf, hscookie, Prog.orUndef, hyoung, hcached]
  obtain ⟨ev, h⟩ := Prog.goes_of_run filterStep (play_step fun _ _ _ h => by cases h) hrun
  exact ⟨_, ev, h, rfl⟩

/-- A record that was stored from an answer with factors is good without a
server only for a request whose factors it has, unless it was stored under
protocol 3. -/
theorem cached_factors {f : SFile} (hstored : StoredFrom si f) (hpath : pathOf cfg cookie = some path)
    (hfile : w.files path = some f) (hyoung : w.clock ≤ f.mtime + idleTime) :
    (∀ n (wants : Bool) cl ev v w', Prog.Goes filterStep
        (cookieValid n cfg cookie (if wants then some none else none) ipaddr cl) w ev (some v) w' →
      w'.heard = w.heard → v.rc = .ok → ∀ f ∈ cfg.reqfv, f ∈ acavParse si.factor) ↔
    (si.protocol = 2 ∨ (∀ f ∈ cfg.reqfv, f ∈ acavParse si.factor) ∨ cfg.checkip = .always ∧ ipaddr ≠ si.ipaddr) := by
  obtain ⟨text, m⟩ := f
  obtain ⟨hfits, rfl, hproto⟩ := hstored
  have hinfo : SFile.info ⟨recordText si, m⟩ = some (0, si.reread m) := readScookie_recordText hfits m
  constructor
  · intro h
    by_contra hno
    simp only [not_or] at hno
    obtain ⟨hv2, hmissing, hip⟩ := hno
    have hcached : ∃ si₁ si₂, cached cfg ipaddr .zero (si.reread m) = (si₁, some si₂) := by
      have h₁ : ¬ (cfg.checkip = .always ∧ ipaddr ≠ (si.reread m).ipaddr) := hip
      have h₀ : (si.reread m).protocol = 0 := by simp [Sinfo.reread, hv2]
      rw [cached, if_neg h₁]
      dsimp only
      rw [h₀, if_neg (by simp [supportsFactors])]
      exact ⟨_, _, rfl⟩
    obtain ⟨si₁, si₂, hcached⟩ := hcached
    have hfresh : fresh w.clock (si.reread m) := by
      have hyoung : w.clock ≤ m + 60 := hyoung
      simp only [fresh, Sinfo.reread, idleTime]
      exact decide_eq_true (by omega)
    obtain ⟨v, ev, hrun, hok⟩ := record_run hpath hfile hinfo hfresh hcached
    exact hmissing (h 1 false [] ev v w hrun rfl hok)
  · intro hcond n wants cl ev v w' hrun hoff hok
    obtain ⟨p, f, lsi, hp, hf, hinfo', hip, hfactors⟩ := offline_record hrun hoff hok
    cases hpath.symm.trans hp
    cases hfile.symm.trans hf
    cases hinfo.symm.trans hinfo'
    rcases hcond with hv2 | hall | ⟨halways, hne⟩
    · have h₂ : supportsFactors (si.reread m).protocol := by simp [Sinfo.reread, hv2, supportsFactors]
      have hfac : (si.reread m).factor = si.factor := by simp [Sinfo.reread, hproto]
      exact hfac ▸ hfactors h₂
    · exact hall
    · exact absurd (hip halways) hne

end

/-! ## A record of protocol 3 -/

/-- A location that wants a second factor. -/
def tokenFilter : HostConfig := { wikiFilter with reqfv := ["mtoken".toList] }

/-- What a server of protocol `p` said of Ann. -/
def annInfo (p : Int) : Sinfo := ⟨p, "10.0.0.1".toList, "ann".toList, "umich".toList, "umich".toList, [], 0⟩

def annRecord (p : Int) : SFile := ⟨recordText (annInfo p), 100⟩

def annWorld (p : Int) : World := { emptyWorld 110 with
  files := fun path => if path = "/f/cosign-wiki=xyz".toList then some (annRecord p) else none }

theorem annInfo_fits (p : Int) (hp : p = 2 ∨ p = 3) : (annInfo p).Fits where
  protocol := by rcases hp with rfl | rfl <;> decide
  ipaddr := ⟨oneLine_of_isOneLine rfl, by simp [annInfo, ipaddrSize]⟩
  user := ⟨oneLine_of_isOneLine rfl, by simp [annInfo, userSize]⟩
  realm := ⟨oneLine_of_isOneLine rfl, by simp [annInfo, realmSize]⟩
  factor _ := ⟨oneLine_of_isOneLine rfl, by simp [annInfo, factorSize]⟩
  krb5tkt := ⟨oneLine_of_isOneLine rfl, by simp [annInfo, krb5tktSize]⟩

theorem annRecord_stored (p : Int) (hp : p = 2 ∨ p = 3) : StoredFrom (annInfo p) (annRecord p) :=
  ⟨annInfo_fits p hp, rfl, by rcases hp with rfl | rfl <;> rfl⟩

theorem cached_no_factors :
    ¬ ∀ (cfg : HostConfig) (cookie ipaddr path : Str) (si : Sinfo) (w : World) (f : SFile), StoredFrom si f →
      cfg.reqfv ≠ [] → pathOf cfg cookie = some path → w.files path = some f → w.clock ≤ f.mtime + idleTime →
      ∀ n (wants : Bool) cl ev v w', Prog.Goes filterStep
        (cookieValid n cfg cookie (if wants then some none else none) ipaddr cl) w ev (some v) w' →
      w'.heard = w.heard → v.rc = .ok → ∀ f ∈ cfg.reqfv, f ∈ acavParse si.factor := by
  intro h
  have hrun : ∃ v, plays (fun _ _ => none) tokenFilter scookie false "10.0.0.1".toList [] (annWorld 3) =
      some (v, annWorld 3) ∧ v.rc = .ok := ⟨_, rfl, rfl⟩
  obtain ⟨v, hrun, hok⟩ := hrun
  obtain ⟨n, cl, ev, hgoes⟩ := plays_made (fun _ _ _ h => by cases h) hrun
  have hfactor := h tokenFilter scookie "10.0.0.1".toList "/f/cosign-wiki=xyz".toList (annInfo 3) (annWorld 3)
    (annRecord 3) (annRecord_stored 3 (.inr rfl)) (by decide) (by decide) rfl (by decide) n false cl ev v (annWorld 3)
    hgoes rfl hok "mtoken".toList List.mem_cons_self
  exact absurd hfactor (by decide)

/-- The same record under protocol 2 is not used without a server. -/
theorem ann_v2_checked : ∃ v, plays (fun _ _ => none) tokenFilter scookie false "10.0.0.1".toList [] (annWorld 2) =
    some (v, annWorld 2) ∧ v.rc ≠ .ok := by
  obtain ⟨v, hrun⟩ : ∃ v, plays (fun _ _ => none) tokenFilter scookie false "10.0.0.1".toList [] (annWorld 2) =
    some (v, annWorld 2) := ⟨_, rfl⟩
  refine ⟨v, hrun, fun hok => ?_⟩
  obtain ⟨n, cl, ev, hgoes⟩ := plays_made (fun _ _ _ h => by cases h) hrun
  have hpath : pathOf tokenFilter scookie = some "/f/cosign-wiki=xyz".toList := by decide
  have hfactor := (cached_factors (w := annWorld 2) (annRecord_stored 2 (.inl rfl)) hpath rfl (by decide)).2 (.inl rfl) n
    false cl ev v (annWorld 2) hgoes rfl hok "mtoken".toList List.mem_cons_self
  exact absurd hfactor (by decide)

end Cosign.Filter
