import Cosign.Cgi.Cookies
import Cosign.Daemon.Command
import Cosign.Libsnet.Snet
/-!
# The CGI's commands

The CGI writes each command with a format string, and the daemon splits the line
at its blanks. A word that is empty is lost on the way, so the words after it
move up: where the number of words then still suits the handler, it takes one
argument for another.
-/

namespace Cosign

/-- A command of the CGI, with the arguments it is meant to carry. -/
inductive Message where
  /-- `krb` is whether a ticket follows. -/
  | login (cookie ip user realm : Str) (krb : Bool)
  | logout (cookie ip : Str)
  | register (cookie ip scookie : Str)
  | check (cookie : Str)
  deriving DecidableEq

namespace Message

def name : Message → CommandName
  | login .. => .login
  | logout .. => .logout
  | register .. => .register
  | check _ => .check

/-- What stands between the blanks of the format strings of `net_login`,
`net_logout`, `net_register` and `net_check`. -/
def words : Message → List Str
  | login cookie ip user realm false => ["LOGIN".toList, cookie, ip, user, realm]
  | login cookie ip user realm true => ["LOGIN".toList, cookie, ip, user, realm, "kerberos".toList]
  | logout cookie ip => ["LOGOUT".toList, cookie, ip]
  | register cookie ip scookie => ["REGISTER".toList, cookie, ip, scookie]
  | check cookie => ["CHECK".toList, cookie]

/-- What `snet_writef` sends. -/
def bytes (m : Message) : Str := unwords m.words ++ "\r\n".toList

/-- The `validchars` guards of `cosign_login`, `cosign_logout`,
`cosign_register` and `cosign_check`. -/
def guarded : Message → Bool
  | login cookie _ user _ _ => validchars cookie && validchars user
  | logout cookie _ => validchars cookie
  | register cookie _ scookie => validchars cookie && validchars scookie
  | check cookie => validchars cookie

/-- The address and the realm, which no guard looks at. -/
def unguarded : Message → List Str
  | login _ ip _ realm _ => [ip, realm]
  | logout _ ip => [ip]
  | register _ ip _ => [ip]
  | check _ => []

/-- The handler of the words `av` either refuses them before it acts, or acts on
the arguments that were meant. No number of words is refused by `f_check`. -/
def Arrives (cfg : Config) (env : Env) (av : List Str) : Message → Prop
  | login cookie ip user realm krb => ∀ a path, loginArgs cfg env av = .args a →
      mkcookiepath none cfg.hashlen a.cookie maxPathLen = some path →
      a.cookie = cookie ∧ a.ip = ip ∧ a.user = user ∧ a.factors = [realm] ∧ a.krbpath.isSome = krb
  | logout cookie ip => ∀ w c i, av = [w, c, i] → c = cookie ∧ i = ip
  | register cookie ip scookie => ∀ w c i s, av = [w, c, i, s] → c = cookie ∧ i = ip ∧ s = scookie
  | check cookie => ∃ w rest, av = w :: cookie :: rest

/-- The daemon reads the line, gives its words to the command's handler, and
they arrive. -/
def Meant (cfg : Config) (env : Env) (sn : Snet Unit) (m : Message) : Prop :=
  ∃ line, (sn.fill (m.bytes.map fun c => (c, ()))).scan.1 = some line ∧
    (∀ ses, command cfg ses env line = handle cfg ses env (acavParse line) m.name) ∧
    m.Arrives cfg env (acavParse line)

/-- No word is lost that moves others into its place: a ticket's LOGIN has a
user, and a cookie where the address could be one, and a CHECK has a cookie. -/
def Whole (cfg : Config) : Message → Prop
  | login cookie ip user _ krb => krb = true →
      (user = [] → cookie ≠ [] → mkcookiepath none cfg.hashlen cookie maxPathLen = none) ∧
        (cookie = [] → user ≠ [] → mkcookiepath none cfg.hashlen ip maxPathLen = none)
  | logout .. => True
  | register .. => True
  | check cookie => cookie ≠ []

end Message

/-- A C string that is not empty and holds no blank. -/
def Unblank (s : Str) : Prop := s ≠ [] ∧ ∀ c ∈ s, isspace c = false ∧ c ≠ '\x00'

def isUnblank (s : Str) : Bool := s ≠ [] && s.all fun c => !isspace c && c ≠ '\x00'

theorem unblank_of {s : Str} (h : isUnblank s = true) : Unblank s := by
  rw [isUnblank, Bool.and_eq_true, List.all_eq_true] at h
  refine ⟨of_decide_eq_true h.1, ?_⟩
  intro c hc
  simpa using h.2 c hc

/-! ## The line -/

/-- A character that neither ends a line nor parts two words. -/
def isPlain (c : Char) : Bool := !isBlank c && !isEol c

theorem plain_of_valid {s : Str} (h : validchars s = true) : ∀ c ∈ s, isPlain c = true := by
  intro c hc
  by_cases hne : s = []
  · simp [hne] at hc
  have hblank := (word_of_valid h hne).2 c hc
  have heol : isEol c = false := by
    rw [isEol, Bool.or_eq_false_iff]
    refine ⟨decide_eq_false ?_, decide_eq_false ?_⟩
    · rintro rfl
      exact not_mem_of_valid h rfl hc
    · rintro rfl
      exact not_mem_of_valid h rfl hc
  simp [isPlain, hblank, heol]

theorem plain_of_unblank {s : Str} (h : Unblank s) : ∀ c ∈ s, isPlain c = true := by
  intro c hc
  obtain ⟨hsp, h0⟩ := h.2 c hc
  have hne : ∀ d : Char, isspace d = true → c ≠ d := by
    rintro d hd rfl
    simp [hd] at hsp
  simp [isPlain, isBlank, isEol, h0, hne ' ' (by decide), hne '\t' (by decide), hne '\n' (by decide),
    hne '\r' (by decide)]

theorem unwords_mem {ws : List Str} {c : Char} (hc : c ∈ unwords ws) : c = ' ' ∨ ∃ w ∈ ws, c ∈ w := by
  induction ws using unwords.induct with
  | case1 => simp [unwords] at hc
  | case2 w => exact .inr ⟨w, by simp, hc⟩
  | case3 w v ws ih =>
    rcases List.mem_append.1 hc with hw | hc
    · exact .inr ⟨w, by simp, hw⟩
    rcases List.mem_cons.1 hc with rfl | hc
    · exact .inl rfl
    rcases ih hc with he | ⟨x, hx, hcx⟩
    · exact .inl he
    · exact .inr ⟨x, List.mem_cons_of_mem _ hx, hcx⟩

/-- A line without an end inside is read as it was written. -/
theorem scanFrom_line (sn : Snet Unit) (st : RState) (seen : List (Char × Unit)) {text : Str}
    (h : ∀ c ∈ text, isEol c = false ∧ c ≠ '\n') (rest : List (Char × Unit)) :
    (sn.scanFrom st seen ((text.map fun c => (c, ())) ++ ('\r', ()) :: rest)).1 = some (Snet.textOf seen ++ text) := by
  induction text generalizing st seen with
  | nil => simp [Snet.scanFrom, isEol]
  | cons c text ih =>
    obtain ⟨heol, hnl⟩ := h c List.mem_cons_self
    have := ih .within (seen ++ [(c, ())]) fun d hd => h d (List.mem_cons_of_mem _ hd)
    simpa [Snet.scanFrom, heol, hnl, Snet.textOf] using this

namespace Message

theorem words_plain {m : Message} (hg : m.guarded = true) (hu : ∀ s ∈ m.unguarded, Unblank s) :
    ∀ w ∈ m.words, ∀ c ∈ w, isPlain c = true := by
  have hlit : ∀ w : Str, w.all isPlain = true → ∀ c ∈ w, isPlain c = true := fun w h => List.all_eq_true.1 h
  cases m with
  | login cookie ip user realm krb =>
    rw [guarded, Bool.and_eq_true] at hg
    have hip := plain_of_unblank (hu ip (by simp [unguarded]))
    have hrealm := plain_of_unblank (hu realm (by simp [unguarded]))
    cases krb
    · simp only [words, List.forall_mem_cons]
      exact ⟨hlit _ rfl, plain_of_valid hg.1, hip, plain_of_valid hg.2, hrealm, List.forall_mem_nil _⟩
    · simp only [words, List.forall_mem_cons]
      exact ⟨hlit _ rfl, plain_of_valid hg.1, hip, plain_of_valid hg.2, hrealm, hlit _ rfl, List.forall_mem_nil _⟩
  | logout cookie ip =>
    simp only [words, List.forall_mem_cons]
    exact ⟨hlit _ rfl, plain_of_valid hg, plain_of_unblank (hu ip (by simp [unguarded])), List.forall_mem_nil _⟩
  | register cookie ip scookie =>
    rw [guarded, Bool.and_eq_true] at hg
    simp only [words, List.forall_mem_cons]
    exact ⟨hlit _ rfl, plain_of_valid hg.1, plain_of_unblank (hu ip (by simp [unguarded])), plain_of_valid hg.2,
      List.forall_mem_nil _⟩
  | check cookie =>
    simp only [words, List.forall_mem_cons]
    exact ⟨hlit _ rfl, plain_of_valid hg, List.forall_mem_nil _⟩

/-- The daemon reads the line that was written, and finds in it the words that
are not empty. -/
theorem received {m : Message} (hg : m.guarded = true) (hu : ∀ s ∈ m.unguarded, Unblank s) {sn : Snet Unit}
    (hsn : sn.rbuf = []) :
    (sn.fill (m.bytes.map fun c => (c, ()))).scan.1 = some (unwords m.words) ∧
      acavParse (unwords m.words) = m.words.filter (· ≠ []) := by
  have hplain := words_plain hg hu
  constructor
  · have hline : ∀ c ∈ unwords m.words, isEol c = false ∧ c ≠ '\n' := by
      intro c hc
      rcases unwords_mem hc with rfl | ⟨w, hw, hcw⟩
      · decide
      · have := hplain w hw c hcw
        simp only [isPlain, isBlank, Bool.and_eq_true, Bool.not_eq_true', Bool.or_eq_false_iff,
          decide_eq_false_iff_not] at this
        exact ⟨this.2, this.1.2⟩
    have := scanFrom_line (sn.fill (m.bytes.map fun c => (c, ()))) sn.rstate [] hline [('\n', ())]
    simpa [Snet.scan, Snet.fill, hsn, bytes, Snet.textOf] using this
  · refine acavParse_unwords_filter ?_
    intro w hw c hc
    have := hplain w hw c hc
    rw [isPlain, Bool.and_eq_true, Bool.not_eq_true'] at this
    exact this.1

theorem dispatched (cfg : Config) (ses : Session) (env : Env) {m : Message} {line : Str}
    (h : acavParse line = m.words.filter (· ≠ [])) :
    command cfg ses env line = handle cfg ses env (acavParse line) m.name := by
  obtain ⟨w, r, hw, hf⟩ : ∃ w r, m.words.filter (· ≠ []) = w :: r ∧ findCommand w = some m.name := by
    cases m with
    | login cookie ip user realm krb =>
      have hl : findCommand "LOGIN".toList = some .login := by decide
      cases krb <;> exact ⟨_, _, rfl, hl⟩
    | logout cookie ip =>
      have hl : findCommand "LOGOUT".toList = some .logout := by decide
      exact ⟨_, _, rfl, hl⟩
    | register cookie ip scookie =>
      have hr : findCommand "REGISTER".toList = some .register := by decide
      exact ⟨_, _, rfl, hr⟩
    | check cookie =>
      have hc : findCommand "CHECK".toList = some .check := by decide
      exact ⟨_, _, rfl, hc⟩
  rw [command, h, hw]
  dsimp only
  rw [hf]

/-! ## The arguments -/

/-- Five words are a LOGIN without a ticket, whatever the last one is. -/
theorem args_five (cfg : Config) (env : Env) (w c i u f : Str) :
    loginArgs cfg env [w, c, i, u, f] = .args ⟨c, i, u, f, [], none⟩ := by
  simp [loginArgs]

theorem args_ticket {cfg : Config} {env : Env} {w c i u f : Str} {a : LoginArgs}
    (h : loginArgs cfg env [w, c, i, u, f, "kerberos".toList] = .args a) :
    a.cookie = c ∧ a.ip = i ∧ a.user = u ∧ a.factors = [f] ∧ a.krbpath.isSome = true := by
  simp only [loginArgs, List.getLast?_singleton, if_true] at h
  split at h
  · cases h
  split at h
  · cases h
  cases h
  exact ⟨rfl, rfl, rfl, rfl, rfl⟩

/-- Of a LOGIN without a ticket, a word that is lost leaves too few. -/
theorem login_arrives (cfg : Config) (env : Env) (cookie user : Str) {ip realm : Str} (hip : ip ≠ []) (hr : realm ≠ []) :
    (login cookie ip user realm false).Arrives cfg env ((login cookie ip user realm false).words.filter (· ≠ [])) := by
  intro a path ha hp
  by_cases hc : cookie = [] <;> by_cases hu : user = [] <;> simp [words, hc, hu, hip, hr, loginArgs] at ha
  subst ha
  exact ⟨rfl, rfl, rfl, rfl, rfl⟩

theorem ticket_arrives (cfg : Config) (env : Env) (cookie user : Str) {ip realm : Str} (hip : ip ≠ []) (hr : realm ≠ []) :
    (login cookie ip user realm true).Arrives cfg env ((login cookie ip user realm true).words.filter (· ≠ [])) ↔
      (login cookie ip user realm true).Whole cfg := by
  by_cases hc : cookie = []
  · by_cases hu : user = []
    · have hw : (login cookie ip user realm true).words.filter (· ≠ []) =
          ["LOGIN".toList, ip, realm, "kerberos".toList] := by
        simp [words, hc, hu, hip, hr]
      rw [hw]
      constructor
      · intro _ _
        exact ⟨fun _ h => absurd hc h, fun _ h => absurd hu h⟩
      · intro _ a path ha
        simp [loginArgs] at ha
    -- the address is taken for the cookie
    · have hw : (login cookie ip user realm true).words.filter (· ≠ []) =
          ["LOGIN".toList, ip, user, realm, "kerberos".toList] := by
        simp [words, hc, hu, hip, hr]
      rw [hw]
      constructor
      · intro h _
        refine ⟨fun h => absurd h hu, fun _ _ => ?_⟩
        rcases hp : mkcookiepath none cfg.hashlen ip maxPathLen with _ | path
        · rfl
        · exact absurd ((h _ path (args_five ..) hp).1.trans hc) hip
      · intro h a path ha hp
        rw [args_five] at ha
        cases ha
        rw [(h rfl).2 hc hu] at hp
        cases hp
  · by_cases hu : user = []
    -- the realm is taken for the user, and "kerberos" for the factor
    · have hw : (login cookie ip user realm true).words.filter (· ≠ []) =
          ["LOGIN".toList, cookie, ip, realm, "kerberos".toList] := by
        simp [words, hc, hu, hip, hr]
      rw [hw]
      constructor
      · intro h _
        refine ⟨fun _ _ => ?_, fun h => absurd h hc⟩
        rcases hp : mkcookiepath none cfg.hashlen cookie maxPathLen with _ | path
        · rfl
        · exact absurd ((h _ path (args_five ..) hp).2.2.1.trans hu) hr
      · intro h a path ha hp
        rw [args_five] at ha
        cases ha
        rw [(h rfl).1 hu hc] at hp
        cases hp
    · have hw : (login cookie ip user realm true).words.filter (· ≠ []) =
          ["LOGIN".toList, cookie, ip, user, realm, "kerberos".toList] := by
        simp [words, hc, hu, hip, hr]
      rw [hw]
      constructor
      · intro _ _
        exact ⟨fun h => absurd h hu, fun h => absurd h hc⟩
      · intro _ a path ha _
        exact args_ticket ha

theorem arrives_iff (cfg : Config) (env : Env) {m : Message} (hu : ∀ s ∈ m.unguarded, Unblank s) :
    m.Arrives cfg env (m.words.filter (· ≠ [])) ↔ m.Whole cfg := by
  cases m with
  | login cookie ip user realm krb =>
    have hip : ip ≠ [] := (hu ip (by simp [unguarded])).1
    have hr : realm ≠ [] := (hu realm (by simp [unguarded])).1
    cases krb with
    | false =>
      refine ⟨?_, fun _ => login_arrives cfg env cookie user hip hr⟩
      intro _ h
      cases h
    | true => exact ticket_arrives cfg env cookie user hip hr
  | logout cookie ip =>
    refine ⟨fun _ => trivial, ?_⟩
    intro _ w c i hav
    have hip : ip ≠ [] := (hu ip (by simp [unguarded])).1
    by_cases hc : cookie = [] <;> simp [words, hc, hip] at hav
    exact ⟨hav.2.1.symm, hav.2.2.symm⟩
  | register cookie ip scookie =>
    refine ⟨fun _ => trivial, ?_⟩
    intro _ w c i s hav
    have hip : ip ≠ [] := (hu ip (by simp [unguarded])).1
    by_cases hc : cookie = [] <;> by_cases hs : scookie = [] <;> simp [words, hc, hs, hip] at hav
    exact ⟨hav.2.1.symm, hav.2.2.1.symm, hav.2.2.2.symm⟩
  | check cookie =>
    constructor
    · rintro ⟨w, rest, hav⟩ rfl
      simp [words] at hav
    · intro hc
      exact ⟨"CHECK".toList, [], by simpa [words, Whole] using hc⟩

/-- A guarded command arrives as it is meant if and only if no word is lost that
moves others into its place. -/
theorem meant_iff (cfg : Config) (env : Env) {sn : Snet Unit} (hsn : sn.rbuf = []) {m : Message}
    (hg : m.guarded = true) (hu : ∀ s ∈ m.unguarded, Unblank s) : m.Meant cfg env sn ↔ m.Whole cfg := by
  obtain ⟨hline, hav⟩ := received hg hu hsn
  rw [← arrives_iff cfg env hu]
  constructor
  · rintro ⟨line, hl, -, ha⟩
    cases hline.symm.trans hl
    rwa [← hav]
  · intro ha
    refine ⟨_, hline, fun ses => dispatched cfg ses env hav, ?_⟩
    rwa [hav]

theorem meant_wiki : (login "cosign=abc".toList "10.0.0.1".toList "ana".toList "EXAMPLE.ORG".toList true).Meant
    Config.default (Env.calm 0) Snet.attach :=
  (meant_iff Config.default (Env.calm 0) rfl (by decide)
    (by simp only [unguarded, List.forall_mem_cons]
        exact ⟨unblank_of rfl, unblank_of rfl, List.forall_mem_nil _⟩)).2
    fun _ => ⟨fun h => absurd h (by decide), fun h => absurd h (by decide)⟩

/-- With no user, the realm becomes the user, "kerberos" the factor, and no
ticket is waited for. -/
theorem user_shifted : ¬ ∀ (cfg : Config) (env : Env) (sn : Snet Unit) (m : Message), sn.rbuf = [] →
    m.guarded = true → (∀ s ∈ m.unguarded, Unblank s) → m.Meant cfg env sn := by
  intro h
  have hu : ∀ s ∈ (login "cosign=abc".toList "10.0.0.1".toList [] "EXAMPLE.ORG".toList true).unguarded, Unblank s := by
    simp only [unguarded, List.forall_mem_cons]
    exact ⟨unblank_of rfl, unblank_of rfl, List.forall_mem_nil _⟩
  have := (meant_iff Config.default (Env.calm 0) rfl (by decide) hu).1 (h _ _ Snet.attach _ rfl (by decide) hu)
  exact absurd ((this rfl).1 rfl (by decide)) (by decide)

end Message
end Cosign
