import Cosign.Filter.Cached
/-!
# What a stored record gives back

`cosign_cookie_valid` writes the protocol of the connection into the record,
and the values it had checked. All of them come back, but a protocol comes
back only when it is 0 or 2.
-/

namespace Cosign.Filter

open Lib

/-- `read_scookie` finds in the file what was written of `si`. -/
def ReadsBack (text : Str) (si : Sinfo) : Prop :=
  ∀ m, ∃ lsi, readScookie (.file text m) = some (0, lsi) ∧ lsi.protocol = si.protocol ∧ SameUser lsi si ∧
    (supportsFactors si.protocol → lsi.factor = si.factor)

theorem readsBack_recordText {si : Sinfo} (h : si.Fits) :
    ReadsBack (recordText si) si ↔ si.protocol = 0 ∨ si.protocol = 2 := by
  constructor
  · intro hback
    obtain ⟨lsi, hread, hproto, -⟩ := hback 0
    rw [readScookie_recordText h] at hread
    cases hread
    have hif : (if si.protocol = 2 then 2 else 0) = si.protocol := hproto
    split at hif
    · rename_i h2; exact .inr h2
    · exact .inl hif.symm
  · intro hproto m
    refine ⟨si.reread m, readScookie_recordText h m, ?_, ⟨rfl, rfl, rfl⟩, fun hs => ?_⟩
    · rcases hproto with h0 | h2
      · simp [Sinfo.reread, h0]
      · simp [Sinfo.reread, h2]
    · simp [Sinfo.reread, hs]

/-- The protocol of a connection as `si_protocol` holds it. -/
theorem protoInt_cases (p : UInt32) : (protoInt p = 0 ∨ protoInt p = 2) ↔ p = 0 ∨ p = 2 := by
  have hp := p.toNat_lt
  have h0 : p = 0 ↔ p.toNat = 0 := by rw [← UInt32.toNat_inj]; rfl
  have h2 : p = 2 ↔ p.toNat = 2 := by rw [← UInt32.toNat_inj]; rfl
  rw [h0, h2, protoInt_eq]
  generalize p.toNat = n at hp
  rw [Int.bmod_def]
  split <;> omega

/-- The call gave the file this text. -/
structure Call.Stores (x : Call) (path text : Str) : Prop where
  file : ∃ m, x.post.files path = some ⟨text, m⟩
  new : ∀ f, x.pre.files path = some f → f.text ≠ text

/-- What is stored was taken from an answer of the call. -/
theorem Call.Stores.told {x : Call} {path text : Str} (h : x.Stores path text) (hx : x.Made) :
    text = recordText x.res.si ∧ x.res.si.Fits ∧ ∃ a, Told x.cfg x.cookie x.answers x.res.si a := by
  obtain ⟨tv, -, hpost⟩ := hx.spec
  obtain ⟨m, hf⟩ := h.file
  rcases hpost.effect with ⟨hfiles, -⟩ | ⟨-, hfits, a, p, f, htold, -, hfiles, hwritten⟩
  · rw [hfiles] at hf
    exact absurd rfl (h.new _ hf)
  rw [hfiles, Function.update_apply] at hf
  split at hf
  swap
  · exact absurd rfl (h.new _ hf)
  rename_i hpath
  cases hf
  generalize hfile : (⟨text, m⟩ : SFile) = f at hwritten
  cases hwritten with
  | refreshed hg =>
    -- only the time is new
    cases hfile
    exact absurd rfl (h.new _ (hpath ▸ hg))
  | stored =>
    cases hfile
    exact ⟨rfl, hfits, a, htold⟩

/-- A stored record gives back what was stored for a connection of protocol 0
or 2, and for no other. -/
theorem stored_reads_back_iff {x : Call} (hx : x.Made) {path text : Str} (h : x.Stores path text) :
    ∃ a, Told x.cfg x.cookie x.answers x.res.si a ∧
      (ReadsBack text x.res.si ↔ a.conn.proto = 0 ∨ a.conn.proto = 2) := by
  obtain ⟨rfl, hfits, a, htold⟩ := h.told hx
  refine ⟨a, htold, ?_⟩
  rw [readsBack_recordText hfits, htold.factors.1]
  exact protoInt_cases a.conn.proto

/-- Ann's first request, over a connection of protocol `p`. -/
def annConnects (p : UInt32) : Option (Valid × World) :=
  plays annMoves wikiFilter scookie false "10.0.0.1".toList [⟨0, true, true, p⟩] (emptyWorld 100)

def annHeard (p : UInt32) : Answer :=
  ⟨⟨0, true, true, p⟩, "CHECK cosign-wiki=xyz".toList, "231 10.0.0.1 ann umich".toList, 100⟩

theorem annConnects_two : ∃ v w', annConnects 2 = some (v, w') ∧
    (w'.files "/f/cosign-wiki=xyz".toList).isSome = true ∧ w'.heard = [annHeard 2] :=
  ⟨_, _, rfl, rfl, rfl⟩

theorem annConnects_three : ∃ v w', annConnects 3 = some (v, w') ∧
    (w'.files "/f/cosign-wiki=xyz".toList).isSome = true ∧ w'.heard = [annHeard 3] :=
  ⟨_, _, rfl, rfl, rfl⟩

/-- The call stores what it was told. -/
theorem annConnects_stores {p : UInt32} {v : Valid} {w' : World} (hrun : annConnects p = some (v, w'))
    (hfile : (w'.files "/f/cosign-wiki=xyz".toList).isSome = true) (hheard : w'.heard = [annHeard p]) :
    ∃ (x : Call) (text : Str), x.Made ∧ x.Stores "/f/cosign-wiki=xyz".toList text ∧
      ∀ a ∈ x.answers, a.conn.proto = p := by
  obtain ⟨f, hf⟩ := Option.isSome_iff_exists.1 hfile
  refine ⟨_, f.text, plays_made annMoves_line hrun, ⟨⟨f.mtime, hf⟩, by rintro _ ⟨⟩⟩, fun a ha => ?_⟩
  rw [Call.answers, hheard] at ha
  obtain rfl := List.mem_singleton.1 ha
  rfl

theorem ann_v2_reads_back : ∃ (x : Call) (text : Str) (a : Answer), x.Stores "/f/cosign-wiki=xyz".toList text ∧
    Told x.cfg x.cookie x.answers x.res.si a ∧ (ReadsBack text x.res.si ↔
      a.conn.proto = 0 ∨ a.conn.proto = 2) := by
  obtain ⟨v, w', hrun, hfile, hheard⟩ := annConnects_two
  obtain ⟨x, text, hx, hstores, -⟩ := annConnects_stores hrun hfile hheard
  obtain ⟨a, htold, h⟩ := stored_reads_back_iff hx hstores
  exact ⟨x, text, a, hstores, htold, h⟩

/-- The server's own banner says 3. -/
theorem ann_v3_lost : ¬ ∀ (x : Call) (path text : Str), x.Made → x.Stores path text → ReadsBack text x.res.si := by
  intro h
  obtain ⟨v, w', hrun, hfile, hheard⟩ := annConnects_three
  obtain ⟨x, text, hx, hstores, hproto⟩ := annConnects_stores hrun hfile hheard
  obtain ⟨htext, hfits, a, htold⟩ := hstores.told hx
  have hback := h x _ _ hx hstores
  rw [htext, readsBack_recordText hfits, htold.factors.1, protoInt_cases, hproto a htold.mem] at hback
  exact absurd hback (by decide)

end Cosign.Filter
