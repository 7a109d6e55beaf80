import Cosign.Common.Text
/-!
# The policy of a request

The lighttpd filter keeps one effective configuration, and
`mod_cosign_patch_connection` fills it in for each request: from the global
block, and then from every conditional block that matches. The required factors
are a list here. `PATCH_CFG_VECTOR` asks for too little memory for a long one,
and what it then overwrites is not modelled.
-/

namespace Cosign.Filter

/-! ## Configuration -/

/-- `plugin_config`, the directives of one block. A buffer nothing was put into
is `none`. -/
structure PluginConfig where
  host : Option Str
  service : Option Str
  siteentry : Option Str
  reqf : List Str
  suffix : Option Str
  fake : Nat
  isPublic : Nat
  redirect : Option Str
  posterror : Option Str
  handleruri : Option Str
  validref : Option Str
  /-- The pattern that was compiled. -/
  validpcre : Option Str
  referr : Option Str
  port : Nat
  protect : Nat
  checkip : Int
  crypto : List (Str × Str)
  filterdb : Option Str
  hashlen : Int
  proxydb : Option Str
  tktPrefix : Option Str
  http : Nat
  noappendport : Nat
  proxy : Nat
  expiretime : Int
  krbtkt : Nat
  gss : Nat

/-- `cosign_host_config`, but for the connections and their TLS context, which
are made once. -/
structure SharedConfig where
  host : Option Str
  service : Option Str
  siteentry : Option Str
  reqfv : List Str
  reqfc : Nat
  suffix : Option Str
  fake : Nat
  isPublic : Nat
  redirect : Option Str
  posterror : Option Str
  validref : Option Str
  referr : Option Str
  port : Nat
  protect : Nat
  configured : Nat
  checkip : Int
  cert : Option Str
  key : Option Str
  cadir : Option Str
  filterdb : Option Str
  hashlen : Int
  proxydb : Option Str
  tktPrefix : Option Str
  http : Nat
  noappendport : Nat
  proxy : Nat
  expiretime : Int
  gss : Nat
  krbtkt : Nat

/-- What one request leaves for the next: `conf` and `pd_cfg`. -/
structure PluginData where
  conf : PluginConfig
  cfg : SharedConfig

def PluginConfig.zero : PluginConfig :=
  ⟨none, none, none, [], none, 0, 0, none, none, none, none, none, none, 0, 0, 0, [], none, 0, none, none, 0, 0, 0, 0, 0, 0⟩

/-- `calloc`. -/
def PluginData.zero : PluginData where
  conf := .zero
  cfg := ⟨none, none, none, [], 0, none, 0, 0, none, none, none, none, 0, 0, 0, 0, none, none, none, none, 0, none, none, 0,
    0, 0, 0, 0, 0⟩

inductive Directive where
  | postErrorRedirect
  | service
  | isProtected
  | redirect
  | validationHandlerUri
  | validReference
  | validationErrorRedirect
  | port
  | hostname
  | filterDb
  | ticketPrefix
  | checkIp
  | requireFactor
  | factorSuffix
  | factorSuffixIgnore
  | allowPublicAccess
  | httpOnly
  | noAppendRedirectPort
  | crypto
  | getProxyCookies
  | cookieExpireTime
  | getKerberosTickets
  | kerberosSetupGss
  deriving DecidableEq

/-- `KEY_MATCH`, in the order of the tests. -/
def directives : List (Str × Directive) :=
  [("cosign.post-error-redirect".toList, .postErrorRedirect), ("cosign.service".toList, .service),
    ("cosign.protected".toList, .isProtected), ("cosign.redirect".toList, .redirect),
    ("cosign.validation-handler-uri".toList, .validationHandlerUri), ("cosign.valid-reference".toList, .validReference),
    ("cosign.validation-error-redirect".toList, .validationErrorRedirect), ("cosign.port".toList, .port),
    ("cosign.hostname".toList, .hostname), ("cosign.filter-db".toList, .filterDb),
    ("cosign.ticket-prefix".toList, .ticketPrefix), ("cosign.check-ip".toList, .checkIp),
    ("cosign.require-factor".toList, .requireFactor), ("cosign.factor-suffix".toList, .factorSuffix),
    ("cosign.factor-suffix-ignore".toList, .factorSuffixIgnore), ("cosign.allow-public-access".toList, .allowPublicAccess),
    ("cosign.http-only".toList, .httpOnly), ("cosign.no-append-redirect-port".toList, .noAppendRedirectPort),
    ("cosign.crypto".toList, .crypto), ("cosign.get-proxy-cookies".toList, .getProxyCookies),
    ("cosign.cookie-expire-time".toList, .cookieExpireTime), ("cosign.get-kerberos-tickets".toList, .getKerberosTickets),
    ("cosign.kerberos-setup-gss".toList, .kerberosSetupGss)]

def directive? (key : Str) : Option Directive := List.lookup key directives

/-! ## Patching -/

/-- `PATCH_CFG_VECTOR` -/
def patchVector (reqf : List Str) (cfg : SharedConfig) : SharedConfig :=
  if reqf = [] then cfg else { cfg with reqfv := reqf, reqfc := reqf.length }

/-- What a directive of the block `s` patches. -/
def patch (s : PluginConfig) (p : PluginData) : Directive → PluginData
  | .postErrorRedirect => { p with conf.posterror := s.posterror, cfg.posterror := s.posterror }
  | .service => { p with conf.service := s.service, cfg.service := s.service }
  | .isProtected => { p with conf.protect := s.protect, cfg.protect := s.protect }
  | .redirect => { p with conf.redirect := s.redirect, cfg.redirect := s.redirect }
  | .validationHandlerUri => { p with conf.handleruri := s.handleruri }
  | .validReference => { p with
      conf := { p.conf with validref := s.validref, validpcre := s.validpcre }
      cfg.validref := s.validref }
  | .validationErrorRedirect => { p with conf.referr := s.referr, cfg.referr := s.referr }
  | .port => { p with conf.port := s.port, cfg.port := s.port }
  | .hostname => { p with conf.host := s.host, cfg.host := s.host }
  | .filterDb => { p with conf.filterdb := s.filterdb, cfg.filterdb := s.filterdb }
  | .ticketPrefix => { p with conf.tktPrefix := s.tktPrefix, cfg.tktPrefix := s.tktPrefix }
  | .checkIp => { p with conf.checkip := s.checkip, cfg.checkip := s.checkip }
  | .requireFactor => { p with conf.reqf := s.reqf, cfg := patchVector s.reqf p.cfg }
  | .factorSuffix => { p with conf.suffix := s.suffix, cfg.suffix := s.suffix }
  | .factorSuffixIgnore => { p with conf.fake := s.fake, cfg.fake := s.fake }
  | .allowPublicAccess => { p with conf.isPublic := s.isPublic, cfg.isPublic := s.isPublic }
  | .httpOnly => { p with conf.http := s.http, cfg.http := s.http }
  | .noAppendRedirectPort => { p with conf.noappendport := s.noappendport, cfg.noappendport := s.noappendport }
  | .crypto => { p with
      conf.crypto := s.crypto
      cfg := { p.cfg with
        cert := s.crypto.lookup "cert".toList
        key := s.crypto.lookup "key".toList
        cadir := s.crypto.lookup "cadir".toList } }
  | .getProxyCookies => { p with conf.proxy := s.proxy, cfg.proxy := s.proxy }
  | .cookieExpireTime => { p with conf.expiretime := s.expiretime, cfg.expiretime := s.expiretime }
  | .getKerberosTickets => { p with conf.krbtkt := s.krbtkt, cfg.krbtkt := s.krbtkt }
  | .kerberosSetupGss => { p with conf.gss := s.gss, cfg.gss := s.gss }

/-- The patches of the global block, in the source's order. -/
def globalPatches : List Directive :=
  [.postErrorRedirect, .service, .isProtected, .redirect, .validationHandlerUri, .validReference, .validationErrorRedirect,
    .port, .hostname, .filterDb, .ticketPrefix, .checkIp, .requireFactor, .factorSuffix, .factorSuffixIgnore,
    .allowPublicAccess, .httpOnly, .noAppendRedirectPort, .crypto, .getProxyCookies, .cookieExpireTime,
    .getKerberosTickets, .kerberosSetupGss]

/-- A conditional block: `config_check_cond`, its directives, and the names they
were given by. -/
structure Block (Req : Type) where
  applies : Req → Bool
  config : PluginConfig
  keys : List Str

structure Server (Req : Type) where
  globals : PluginConfig
  blocks : List (Block Req)

/-- The merge of one block that matches. -/
def patchKeys (s : PluginConfig) (keys : List Str) (p : PluginData) : PluginData :=
  (keys.filterMap directive?).foldl (patch s) p

def patchBlock {Req : Type} (r : Req) (p : PluginData) (b : Block Req) : PluginData :=
  if b.applies r then patchKeys b.config b.keys p else p

/-- `mod_cosign_patch_connection` -/
def patchConnection {Req : Type} (srv : Server Req) (p : PluginData) (r : Req) : PluginData :=
  srv.blocks.foldl (patchBlock r) (globalPatches.foldl (patch srv.globals) p)

/-- The effective configuration of a request after some others. -/
def effective {Req : Type} (srv : Server Req) (earlier : List Req) (r : Req) : PluginData :=
  patchConnection srv (earlier.foldl (patchConnection srv) .zero) r

/-! ## All but the required factors -/

/-- The configuration without the vector. -/
def PluginData.bare (p : PluginData) : PluginData := { p with cfg := { p.cfg with reqfv := [], reqfc := 0 } }

def PluginData.vector (p : PluginData) : List Str × Nat := (p.cfg.reqfv, p.cfg.reqfc)

theorem PluginData.ext_bare {p q : PluginData} (h : p.bare = q.bare) (hv : p.vector = q.vector) : p = q := by
  obtain ⟨conf, cfg⟩ := p
  obtain ⟨conf', cfg'⟩ := q
  obtain ⟨hconf, hcfg⟩ := PluginData.mk.inj h
  obtain ⟨hfv, hfc⟩ := Prod.mk.inj hv
  cases cfg
  cases cfg'
  simp only [SharedConfig.mk.injEq] at hcfg
  simp only at hfv hfc
  simp_all

/-- The fields no directive patches. -/
structure SameFixed (p q : PluginData) : Prop where
  conf : p.conf.siteentry = q.conf.siteentry ∧ p.conf.hashlen = q.conf.hashlen ∧ p.conf.proxydb = q.conf.proxydb
  cfg : p.cfg.siteentry = q.cfg.siteentry ∧ p.cfg.configured = q.cfg.configured ∧ p.cfg.hashlen = q.cfg.hashlen ∧
    p.cfg.proxydb = q.cfg.proxydb

/-- The vector plays no part in what else is patched. -/
theorem patch_bare (s : PluginConfig) (p : PluginData) (d : Directive) : (patch s p d).bare = (patch s p.bare d).bare := by
  cases d with
  | requireFactor =>
    simp only [patch, patchVector, PluginData.bare]
    split <;> rfl
  | _ => rfl

theorem patch_fixed (s : PluginConfig) (p : PluginData) (d : Directive) : SameFixed (patch s p d) p := by
  cases d with
  | requireFactor =>
    simp only [patch, patchVector]
    split <;> exact ⟨⟨rfl, rfl, rfl⟩, rfl, rfl, rfl, rfl⟩
  | _ => exact ⟨⟨rfl, rfl, rfl⟩, rfl, rfl, rfl, rfl⟩

theorem SameFixed.trans {p q r : PluginData} (h : SameFixed p q) (h' : SameFixed q r) : SameFixed p r :=
  ⟨⟨h.conf.1.trans h'.conf.1, h.conf.2.1.trans h'.conf.2.1, h.conf.2.2.trans h'.conf.2.2⟩,
    h.cfg.1.trans h'.cfg.1, h.cfg.2.1.trans h'.cfg.2.1, h.cfg.2.2.1.trans h'.cfg.2.2.1, h.cfg.2.2.2.trans h'.cfg.2.2.2⟩

theorem SameFixed.symm {p q : PluginData} (h : SameFixed p q) : SameFixed q p :=
  ⟨⟨h.conf.1.symm, h.conf.2.1.symm, h.conf.2.2.symm⟩, h.cfg.1.symm, h.cfg.2.1.symm, h.cfg.2.2.1.symm, h.cfg.2.2.2.symm⟩

theorem SameFixed.refl (p : PluginData) : SameFixed p p := ⟨⟨rfl, rfl, rfl⟩, rfl, rfl, rfl, rfl⟩

theorem patches_bare (s : PluginConfig) (ds : List Directive) {p q : PluginData} (h : p.bare = q.bare) :
    (ds.foldl (patch s) p).bare = (ds.foldl (patch s) q).bare := by
  induction ds generalizing p q with
  | nil => exact h
  | cons d ds ih => exact ih (by rw [patch_bare s p, patch_bare s q, h])

theorem patches_fixed (s : PluginConfig) (ds : List Directive) (p : PluginData) : SameFixed (ds.foldl (patch s) p) p := by
  induction ds generalizing p with
  | nil => exact .refl p
  | cons d ds ih => exact (ih _).trans (patch_fixed s p d)

/-- The global block leaves nothing of what was there before but the vector. -/
theorem globalPatches_bare (s : PluginConfig) {p q : PluginData} (h : SameFixed p q) :
    (globalPatches.foldl (patch s) p).bare = (globalPatches.foldl (patch s) q).bare := by
  rw [patches_bare s globalPatches (p := p) (q := p.bare) rfl, patches_bare s globalPatches (p := q) (q := q.bare) rfl]
  obtain ⟨⟨h1, h2, h3⟩, h4, h5, h6, h7⟩ := h
  simp only [globalPatches, List.foldl_cons, List.foldl_nil, patch, patchVector, PluginData.bare]
  by_cases hreq : s.reqf = []
  · simp only [hreq, if_true]
    rw [h1, h2, h3, h4, h5, h6, h7]
  · simp only [hreq, if_false]
    rw [h1, h2, h3, h4, h5, h6, h7]

section
variable {Req : Type} (srv : Server Req)

theorem patchBlock_bare (r : Req) (b : Block Req) {p q : PluginData} (h : p.bare = q.bare) :
    (patchBlock r p b).bare = (patchBlock r q b).bare := by
  unfold patchBlock
  split
  · exact patches_bare b.config _ h
  · exact h

theorem patchBlock_fixed (r : Req) (p : PluginData) (b : Block Req) : SameFixed (patchBlock r p b) p := by
  unfold patchBlock
  split
  · exact patches_fixed b.config _ p
  · exact .refl p

theorem blocks_bare (r : Req) (bs : List (Block Req)) {p q : PluginData} (h : p.bare = q.bare) :
    (bs.foldl (patchBlock r) p).bare = (bs.foldl (patchBlock r) q).bare := by
  induction bs generalizing p q with
  | nil => exact h
  | cons b bs ih => exact ih (patchBlock_bare r b h)

theorem blocks_fixed (r : Req) (bs : List (Block Req)) (p : PluginData) : SameFixed (bs.foldl (patchBlock r) p) p := by
  induction bs generalizing p with
  | nil => exact .refl p
  | cons b bs ih => exact (ih _).trans (patchBlock_fixed r p b)

theorem patchConnection_bare (r : Req) {p q : PluginData} (h : SameFixed p q) :
    (patchConnection srv p r).bare = (patchConnection srv q r).bare := blocks_bare r _ (globalPatches_bare srv.globals h)

/-- No history of requests touches the fields that are not patched. -/
theorem history_fixed (earlier : List Req) (p : PluginData) : SameFixed (earlier.foldl (patchConnection srv) p) p := by
  induction earlier generalizing p with
  | nil => exact .refl p
  | cons r earlier ih =>
    exact (ih _).trans ((blocks_fixed r _ _).trans (patches_fixed srv.globals _ _))

theorem effective_bare (h h' : List Req) (r : Req) : (effective srv h r).bare = (effective srv h' r).bare :=
  patchConnection_bare srv r ((history_fixed srv h .zero).trans (history_fixed srv h' .zero).symm)

/-! ## The required factors -/

/-- The vectors that the directives of a block write. -/
def vectorsOf (s : PluginConfig) (ds : List Directive) : List (List Str) :=
  (ds.filter (· = .requireFactor)).filterMap fun _ => if s.reqf = [] then none else some s.reqf

/-- The vectors that are written for a request: of the global block, and of the
blocks that match. -/
def Server.vectors (r : Req) : List (List Str) :=
  vectorsOf srv.globals globalPatches ++
    srv.blocks.flatMap fun b => if b.applies r then vectorsOf b.config (b.keys.filterMap directive?) else []

/-- The last vector is the one that stays. -/
def lastVector (vs : List (List Str)) (v : List Str × Nat) : List Str × Nat :=
  match vs.getLast? with
  | none => v
  | some reqf => (reqf, reqf.length)

theorem lastVector_append (vs ws : List (List Str)) (v : List Str × Nat) :
    lastVector (vs ++ ws) v = lastVector ws (lastVector vs v) := by
  unfold lastVector
  rw [List.getLast?_append]
  cases ws.getLast? with
  | none => rfl
  | some w => rfl

theorem patch_vector (s : PluginConfig) (p : PluginData) (d : Directive) :
    (patch s p d).vector = lastVector (vectorsOf s [d]) p.vector := by
  cases d with
  | requireFactor =>
    simp only [patch, patchVector, PluginData.vector, vectorsOf]
    by_cases h : s.reqf = []
    · simp [h, lastVector]
    · simp [h, lastVector]
  | _ => rfl

theorem patches_vector (s : PluginConfig) (ds : List Directive) (p : PluginData) :
    (ds.foldl (patch s) p).vector = lastVector (vectorsOf s ds) p.vector := by
  induction ds generalizing p with
  | nil => rfl
  | cons d ds ih =>
    have happ : vectorsOf s (d :: ds) = vectorsOf s [d] ++ vectorsOf s ds := by
      rw [vectorsOf, ← List.singleton_append, List.filter_append, List.filterMap_append]
      rfl
    rw [List.foldl_cons, ih, patch_vector, happ, lastVector_append]

theorem blocks_vector (r : Req) (bs : List (Block Req)) (p : PluginData) : (bs.foldl (patchBlock r) p).vector =
    lastVector (bs.flatMap fun b => if b.applies r then vectorsOf b.config (b.keys.filterMap directive?) else [])
      p.vector := by
  induction bs generalizing p with
  | nil => rfl
  | cons b bs ih =>
    rw [List.foldl_cons, ih, List.flatMap_cons, lastVector_append]
    congr 1
    unfold patchBlock
    split
    · exact patches_vector b.config _ p
    · rfl

theorem patchConnection_vector (p : PluginData) (r : Req) :
    (patchConnection srv p r).vector = lastVector (srv.vectors r) p.vector := by
  rw [patchConnection, blocks_vector, patches_vector, ← lastVector_append]
  rfl

/-- Nothing is written where no request has a vector of its own. -/
theorem history_vector (h : ∀ r, srv.vectors r = []) (earlier : List Req) (p : PluginData) :
    (earlier.foldl (patchConnection srv) p).vector = p.vector := by
  induction earlier generalizing p with
  | nil => rfl
  | cons r earlier ih => rw [List.foldl_cons, ih, patchConnection_vector, h r]; rfl

theorem vectors_ne_nil {r : Req} {v : List Str} (h : v ∈ srv.vectors r) : v ≠ [] := by
  have hvectorsOf : ∀ (s : PluginConfig) ds, v ∈ vectorsOf s ds → v ≠ [] := by
    intro s ds hv
    obtain ⟨d, -, hd⟩ := List.mem_filterMap.1 hv
    split at hd
    · cases hd
    · rename_i hne; cases hd; exact hne
  rcases List.mem_append.1 h with h | h
  · exact hvectorsOf _ _ h
  · obtain ⟨b, -, hb⟩ := List.mem_flatMap.1 h
    split at hb
    · exact hvectorsOf _ _ hb
    · cases hb

/-- A request's policy is its own when it has required factors, or when no
request can have any. -/
theorem policy_own_iff (r : Req) :
    (∀ h h' : List Req, effective srv h r = effective srv h' r) ↔
      srv.vectors r ≠ [] ∨ ∀ r', srv.vectors r' = [] := by
  have hvector : ∀ h, (effective srv h r).vector =
      lastVector (srv.vectors r) (h.foldl (patchConnection srv) .zero).vector := fun h => patchConnection_vector ..
  constructor
  · intro hown
    by_contra hno
    rw [not_or, not_not, not_forall] at hno
    obtain ⟨hnil, r', hr'⟩ := hno
    -- a request with factors, and one that comes first
    have heq := congrArg PluginData.vector (hown [r'] [])
    rw [hvector, hvector, hnil, List.foldl_cons, List.foldl_nil, patchConnection_vector] at heq
    obtain ⟨v, hv⟩ : ∃ v, (srv.vectors r').getLast? = some v := ⟨_, List.getLast?_eq_some_getLast hr'⟩
    rw [lastVector, List.getLast?_nil, lastVector, hv] at heq
    exact vectors_ne_nil srv (List.mem_of_getLast? hv) (congrArg Prod.fst heq)
  · rintro hcond h h'
    refine PluginData.ext_bare (effective_bare srv h h' r) ?_
    rw [hvector, hvector]
    rcases hcond with hne | hnone
    · obtain ⟨v, hv⟩ : ∃ v, (srv.vectors r).getLast? = some v := ⟨_, List.getLast?_eq_some_getLast hne⟩
      rw [lastVector, hv, lastVector, hv]
    · rw [history_vector srv hnone, history_vector srv hnone]

end

/-! ## A location that asks for a token -/

/-- `/admin` needs a factor, and nothing else does. -/
def adminServer : Server Bool where
  globals := { PluginConfig.zero with service := some "cosign-www".toList }
  blocks := [⟨id, { PluginConfig.zero with reqf := ["mtoken".toList] }, ["cosign.require-factor".toList]⟩]

/-- After a request for `/admin`, every page needs the factor. -/
theorem admin_inherited : ¬ ∀ (Req : Type) (srv : Server Req) (h h' : List Req) (r : Req),
    effective srv h r = effective srv h' r := by
  intro h
  have heq := congrArg (fun p => p.cfg.reqfc) (h Bool adminServer [true] [] false)
  exact absurd heq (by decide)

end Cosign.Filter
