import Cosign.Daemon.Tellings
import Cosign.Lib.Links
/-!
# The connections of `monster`

A pass begins with a loop over the peers: it connects those that have no
connection, takes those that answer 4xx to `DAEMON` off the list, and asks the
rest for the lines of a `TIME`. The lines of `do_dir` go out over the connections
that are left, and a `.` ends them.
-/

namespace Cosign

open Lib

/-! ## One peer -/

/-- A line over a connection, to the peer or from it. -/
inductive Said where
  | put (line : Str)
  | got (line : Str)
  deriving DecidableEq

/-- `SNET`, with everything that was said over it. -/
structure Wire where
  said : List Said
  deriving DecidableEq

def Wire.put (w : Wire) (line : Str) : Wire := ⟨w.said ++ [.put line]⟩
def Wire.got (w : Wire) (line : Str) : Wire := ⟨w.said ++ [.got line]⟩

/-- `struct connlist` in `monster`. -/
structure Connlist where
  sin : Str
  sn : Option Wire
  last : Nat
  deriving DecidableEq

/-- What `connect_sn` meets: `socket`, `connect` and `snet_attach`, the banner,
whether STARTTLS can be written, its reply, the handshake and the certificate's
name, and under protocol 2 one more reply. `none` is no line. -/
structure Dial where
  attached : Bool
  banner : Option Str
  wrote : Bool
  reply : Option Str
  tls : Bool
  cn : Option Str
  reply2 : Option Str

/-- A line's first character. -/
def begins (c : Char) (line : Option Str) : Bool := line.bind List.head? = some c

def bannerProtocol (banner : Str) : Int := if (strtol ((acavParse banner).getD 1 [])).bmod (2 ^ 32) = 2 then 2 else 0

def starttlsRequest (protocol : Int) : Str := if protocol = 2 then "STARTTLS 2\r\n".toList else "STARTTLS\r\n".toList

/-- `connect_sn`: its value, and `cl_sn`. -/
def connectSn (host : Str) (d : Dial) : Int × Option Wire :=
  if d.attached = false then (-1, none)
  else match d.banner with
    | none => (-1, none)
    | some banner =>
      if banner.head? ≠ some '2' ∨ (acavParse banner).length < 4 then (-1, none)
      else if d.wrote = false ∨ begins '2' d.reply = false then (-1, none)
      else if d.tls = false then (-2, none)
      else match d.cn with
        | none => (-2, none)
        | some cn =>
          if strcaseeq cn host = false then (-2, none)
          else
            let w := ((Wire.mk [.got banner]).put (starttlsRequest (bannerProtocol banner))).got (d.reply.getD [])
            if bannerProtocol banner = 2 then
              if begins '2' d.reply2 = false then (-1, none) else (0, some (w.got (d.reply2.getD [])))
            else (0, some w)

/-- How a peer behaves during the loop. -/
structure Behaviour where
  dial : Dial
  daemon : Option Str
  timeSent : Bool
  time : Option Str

/-- From the write of `TIME` on. -/
def askTime (b : Behaviour) (cur : Connlist) (sn : Wire) : Connlist :=
  if b.timeSent = false then { cur with sn := none }
  else match b.time with
    | none => { cur with sn := none }
    | some line =>
      let sn := (sn.put "TIME\r\n".toList).got line
      if line.head? ≠ some '3' then { cur with sn := none } else { cur with sn := some sn }

/-- One round of the loop. `none` takes the peer off the list; what `close_sn`
says before it is lost with the connection. -/
def round (hostname host : Str) (b : Behaviour) (cur : Connlist) : Option Connlist :=
  match cur.sn with
  | some sn => some (askTime b cur sn)
  | none =>
    match connectSn host b.dial with
    | (0, some sn) =>
      match b.daemon with
      | none => some { cur with sn := none }
      | some line =>
        let sn := (sn.put ("DAEMON ".toList ++ hostname ++ "\r\n".toList)).got line
        if line.head? = some '4' then none
        else if line.head? ≠ some '2' then some { cur with sn := none }
        else some (askTime b { cur with sn := some sn } sn)
    | _ => some { cur with sn := none }

/-- The loop that opens a pass: the nodes it was at, and the list. -/
def openPass (hostname host : Str) (bs : Nat → Behaviour) (head : List Connlist) : Option (List Connlist × List Connlist) :=
  walk (fun i cur => round hostname host (bs i) cur) (head.length + 1) 0 0 head

/-! ## The lines -/

/-- A line that was written, and what had been said before it. -/
structure Write where
  before : Wire
  line : Str

/-- A line of `do_dir`. -/
def reportLine (name : Str) (itime state : Nat) : Str :=
  name ++ ' ' :: decInt (printed itime) ++ ' ' :: decInt (printed state) ++ "\r\n".toList

/-- The loop over the peers in `do_dir`. -/
def sayPeers (fails : Nat → Bool) (name : Str) (itime state : Nat) : (i : Nat) → List Connlist → List Connlist × List Write
  | _, [] => ([], [])
  | i, yacur :: rest =>
    let (rest', writes) := sayPeers fails name itime state (i + 1) rest
    match yacur.sn with
    | none => (yacur :: rest', writes)
    | some sn =>
      if itime > yacur.last then
        let line := reportLine name itime state
        if fails i then ({ yacur with sn := none } :: rest', ⟨sn, line⟩ :: writes)
        else ({ yacur with sn := some (sn.put line) } :: rest', ⟨sn, line⟩ :: writes)
      else (yacur :: rest', writes)

/-- A report of a pass: each entry, and the peers it cannot be written to. -/
abbrev Report := List ((Str × Nat × Nat) × (Nat → Bool))

def sayReport : Report → List Connlist → List Connlist × List Write
  | [], head => (head, [])
  | ((name, itime, state), fails) :: rest, head =>
    let said := sayPeers fails name itime state 0 head
    let after := sayReport rest said.1
    (after.1, said.2 ++ after.2)

/-- The loop that ends a pass. -/
def endPass (now : Nat) (replies : Nat → Option Str) (i : Nat) : List Connlist → List Connlist
  | [] => []
  | yacur :: rest =>
    let yacur := match yacur.sn with
      | none => yacur
      | some sn =>
        match replies i with
        | none => { yacur with sn := none }
        | some line =>
          if line.head? ≠ some '2' then { yacur with sn := none }
          else { yacur with sn := some ((sn.put ".\r\n".toList).got line), last := now }
    yacur :: endPass now replies (i + 1) rest

/-- What a pass meets. -/
structure PassInput where
  now : Nat
  behaviours : Nat → Behaviour
  report : Report
  replies : Nat → Option Str

/-- One pass: the list before it, the nodes the opening loop was at, the list it
leaves, the lines of `do_dir`, and the list after the pass. -/
structure PassRun where
  head : List Connlist
  visited : List Connlist
  opened : List Connlist
  writes : List Write
  after : List Connlist

def monsterPass (hostname host : Str) (p : PassInput) (head : List Connlist) : Option PassRun :=
  (openPass hostname host p.behaviours head).map fun (visited, opened) =>
    let said := sayReport p.report opened
    ⟨head, visited, opened, said.2, endPass p.now p.replies 0 said.1⟩

/-- `main`, for as many passes. -/
def monsterPasses (hostname host : Str) : List PassInput → List Connlist → Option (List PassRun)
  | [], _ => some []
  | p :: ps, head =>
    match monsterPass hostname host p head with
    | none => none
    | some run => (monsterPasses hostname host ps run.after).map (run :: ·)

/-- The loop over the peers is the one of `tellPeers`, with what the connections
have carried. -/
theorem sayPeers_tellPeers (fails : Nat → Bool) (name : Str) (itime state : Nat) (i : Nat) (head : List Connlist) :
    (sayPeers fails name itime state i head).1.map (fun cur => (⟨cur.last, cur.sn.isSome⟩ : MonsterPeer)) =
      (tellPeers fails name itime state i (head.map fun cur => ⟨cur.last, cur.sn.isSome⟩)).1 := by
  induction head generalizing i with
  | nil => rfl
  | cons yacur rest ih =>
    simp only [sayPeers, List.map_cons, tellPeers]
    cases hsn : yacur.sn with
    | none => simp [hsn, ih]
    | some sn =>
      by_cases htime : itime > yacur.last
      · by_cases hfail : fails i = true
        · simp [htime, hfail, ih]
        · simp [htime, hfail, ih]
      · simp [htime, hsn, ih]

/-! ## The opening loop -/

/-- The peer is connected anew, and answers 4xx to `DAEMON`. -/
def refused (host : Str) (b : Behaviour) (cur : Connlist) : Bool :=
  cur.sn.isNone && (connectSn host b.dial).1 = 0 && begins '4' b.daemon

/-- `TIME` has just been answered 3xx. -/
def Wire.Timed (w : Wire) : Prop :=
  ∃ said line, w.said = said ++ [.put "TIME\r\n".toList, .got line] ∧ line.head? = some '3'

/-- The node as the loop leaves it. -/
structure Opened (cur cur' : Connlist) : Prop where
  sin : cur'.sin = cur.sin
  last : cur'.last = cur.last
  sn : cur'.sn = none ∨ ∃ w, cur'.sn = some w ∧ w.Timed

/-- There is a connection just when the value is 0. -/
theorem connectSn_cases (host : Str) (d : Dial) :
    (∃ rc, rc ≠ 0 ∧ connectSn host d = (rc, none)) ∨ ∃ w, connectSn host d = (0, some w) := by
  unfold connectSn
  repeat' split
  all_goals first
    | exact .inr ⟨_, rfl⟩
    | exact .inl ⟨_, by decide, rfl⟩

theorem askTime_opened (b : Behaviour) (cur : Connlist) (sn : Wire) : Opened cur (askTime b cur sn) := by
  unfold askTime
  split
  · exact ⟨rfl, rfl, .inl rfl⟩
  · cases hline : b.time with
    | none => exact ⟨rfl, rfl, .inl rfl⟩
    | some line =>
      dsimp only
      split
      · exact ⟨rfl, rfl, .inl rfl⟩
      · next h3 =>
        refine ⟨rfl, rfl, .inr ⟨_, rfl, sn.said, line, ?_, not_not.1 h3⟩⟩
        simp [Wire.put, Wire.got]

/-- A round takes a peer off the list just when it refuses, and leaves every
other without a connection or with one that `TIME` was answered over. -/
theorem round_spec (hostname host : Str) (b : Behaviour) (cur : Connlist) :
    (refused host b cur = true ∧ round hostname host b cur = none) ∨
      (refused host b cur = false ∧ ∃ cur', round hostname host b cur = some cur' ∧ Opened cur cur') := by
  unfold round
  cases hsn : cur.sn with
  -- the connection of an earlier pass
  | some sn => exact .inr ⟨by simp [refused, hsn], _, rfl, askTime_opened b cur sn⟩
  | none =>
    have hclosed : Opened cur { cur with sn := none } := ⟨rfl, rfl, .inl rfl⟩
    rcases connectSn_cases host b.dial with ⟨rc, hrc, hdial⟩ | ⟨w, hdial⟩
    · refine .inr ⟨by simp [refused, hdial, hrc], { cur with sn := none }, ?_, hclosed⟩
      simp only [hdial]
    · simp only [hdial]
      cases hdaemon : b.daemon with
      | none => exact .inr ⟨by simp [refused, hdaemon, begins], _, rfl, hclosed⟩
      | some line =>
        by_cases h4 : line.head? = some '4'
        · exact .inl ⟨by simp [refused, hsn, hdial, hdaemon, begins, h4], by simp only [h4, if_true]⟩
        · simp only [h4, if_false]
          refine .inr ⟨by simp [refused, hdaemon, begins, h4], ?_⟩
          split
          · exact ⟨_, rfl, hclosed⟩
          · refine ⟨_, rfl, ?_⟩
            exact ⟨(askTime_opened b _ _).sin, (askTime_opened b _ _).last, (askTime_opened b _ _).sn⟩

/-- The nodes that do not refuse, each by its own round. -/
def survivors (host : Str) (bs : Nat → Behaviour) (i : Nat) (head : List Connlist) : List Connlist :=
  ((head.zipIdx i).filter fun (cur, i) => !refused host (bs i) cur).map (·.1)

theorem kept_survivors (hostname host : Str) (bs : Nat → Behaviour) (head : List Connlist) (i : Nat) :
    List.Forall₂ Opened (survivors host bs i head) (kept (fun i cur => round hostname host (bs i) cur) i head) := by
  induction head generalizing i with
  | nil => exact .nil
  | cons cur head ih =>
    have hrest := ih (i + 1)
    rw [survivors] at hrest ⊢
    rw [kept, List.zipIdx_cons]
    rcases round_spec hostname host (bs i) cur with ⟨hr, hnone⟩ | ⟨hr, cur', hsome, hopened⟩
    · rw [hnone, List.filter_cons_of_neg (by simp [hr])]
      exact hrest
    · rw [hsome, List.filter_cons_of_pos (by simp [hr])]
      exact .cons hopened hrest

/-! ## The lines -/

/-- The peer has answered `TIME`, and has been sent lines for it since. -/
def Wire.Reading (w : Wire) : Prop :=
  ∃ said line, ∃ lines : List Str, w.said = said ++ [.put "TIME\r\n".toList, .got line] ++ lines.map Said.put ∧ line.head? = some '3' ∧
    ∀ l ∈ lines, ∃ name itime state, l = reportLine name itime state

def Reading (head : List Connlist) : Prop := ∀ cur ∈ head, ∀ w, cur.sn = some w → w.Reading

theorem Wire.Timed.reading {w : Wire} (h : w.Timed) : w.Reading := by
  obtain ⟨said, line, hsaid, h3⟩ := h
  exact ⟨said, line, [], by simpa using hsaid, h3, by simp⟩

theorem Wire.Reading.put {w : Wire} (h : w.Reading) (name : Str) (itime state : Nat) :
    (w.put (reportLine name itime state)).Reading := by
  obtain ⟨said, line, lines, hsaid, h3, hlines⟩ := h
  refine ⟨said, line, lines ++ [reportLine name itime state], by simp [Wire.put, hsaid], h3, fun l hl => ?_⟩
  rcases List.mem_append.1 hl with hl | hl
  · exact hlines l hl
  · exact ⟨name, itime, state, List.mem_singleton.1 hl⟩

theorem sayPeers_reading (fails : Nat → Bool) (name : Str) (itime state : Nat) (i : Nat) {head : List Connlist}
    (h : Reading head) : Reading (sayPeers fails name itime state i head).1 ∧
      ∀ w ∈ (sayPeers fails name itime state i head).2, w.before.Reading := by
  induction head generalizing i with
  | nil => exact ⟨h, by simp [sayPeers]⟩
  | cons yacur rest ih =>
    obtain ⟨hhead, hrest⟩ := List.forall_mem_cons.1 h
    obtain ⟨ihhead, ihwrites⟩ := ih (i + 1) hrest
    simp only [sayPeers]
    cases hsn : yacur.sn with
    | none => exact ⟨List.forall_mem_cons.2 ⟨hhead, ihhead⟩, ihwrites⟩
    | some sn =>
      have hreads := hhead sn hsn
      dsimp only
      split
      · split
        · exact ⟨List.forall_mem_cons.2 ⟨by simp, ihhead⟩, List.forall_mem_cons.2 ⟨hreads, ihwrites⟩⟩
        · refine ⟨List.forall_mem_cons.2 ⟨?_, ihhead⟩, List.forall_mem_cons.2 ⟨hreads, ihwrites⟩⟩
          rintro w ⟨⟩
          exact hreads.put name itime state
      · exact ⟨List.forall_mem_cons.2 ⟨hhead, ihhead⟩, ihwrites⟩

theorem sayReport_reading (report : Report) {head : List Connlist} (h : Reading head) :
    ∀ w ∈ (sayReport report head).2, w.before.Reading := by
  induction report generalizing head with
  | nil => simp [sayReport]
  | cons entry report ih =>
    obtain ⟨⟨name, itime, state⟩, fails⟩ := entry
    obtain ⟨hhead, hwrites⟩ := sayPeers_reading fails name itime state 0 h
    intro w hw
    rcases List.mem_append.1 hw with hw | hw
    · exact hwrites w hw
    · exact ih hhead w hw

theorem reading_of_opened {l l' : List Connlist} (h : List.Forall₂ Opened l l') : Reading l' := by
  induction h with
  | nil => intro cur hcur; cases hcur
  | @cons cur cur' l l' hcur _ ih =>
    refine List.forall_mem_cons.2 ⟨fun w hw => ?_, ih⟩
    rcases hcur.sn with hnone | ⟨w', hw', htimed⟩
    · rw [hnone] at hw
      cases hw
    · rw [hw'] at hw
      cases hw
      exact htimed.reading

/-! ## Passes -/

/-- What a pass does with its peers. -/
structure PassRight (host : Str) (p : PassInput) (run : PassRun) : Prop where
  visits : run.visited = run.head
  opens : List.Forall₂ Opened (survivors host p.behaviours 0 run.head) run.opened
  writes : ∀ w ∈ run.writes, w.before.Reading

theorem pass_right (hostname host : Str) (p : PassInput) (head : List Connlist) :
    ∃ run, monsterPass hostname host p head = some run ∧ run.head = head ∧ PassRight host p run := by
  have hopens := kept_survivors hostname host p.behaviours head 0
  rw [monsterPass, openPass, walk_all]
  exact ⟨_, rfl, rfl, rfl, hopens, sayReport_reading p.report (reading_of_opened hopens)⟩

/-- Each pass begins with the list the one before left. -/
def InTurn : List Connlist → List PassRun → Prop
  | _, [] => True
  | head, run :: runs => run.head = head ∧ InTurn run.after runs

/-- Whatever its peers do, and whatever the passes before left, `monster` is at
every peer once, drops the ones that refuse, and writes to the ones that answered
`TIME`. -/
theorem passes_right (hostname host : Str) (ps : List PassInput) (head : List Connlist) :
    ∃ runs, monsterPasses hostname host ps head = some runs ∧ InTurn head runs ∧ List.Forall₂ (PassRight host) ps runs := by
  induction ps generalizing head with
  | nil => exact ⟨[], rfl, trivial, .nil⟩
  | cons p ps ih =>
    obtain ⟨run, hrun, hhead, hright⟩ := pass_right hostname host p head
    obtain ⟨runs, hruns, hturn, hrights⟩ := ih run.after
    exact ⟨run :: runs, by simp [monsterPasses, hrun, hruns], ⟨hhead, hturn⟩, .cons hright hrights⟩

end Cosign
