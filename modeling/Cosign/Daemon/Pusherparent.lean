import Cosign.Common.Text
import Cosign.Lib.Workers
/-!
# The parent of the pushers

`pusherparent` keeps a child for each replica. Children end when they like and
are waited for later, against a list that a reload may have replaced in the
meantime.
-/

namespace Cosign

open Lib

/-! ## The list and the children -/

/-- `struct connlist` in the parent. `id` tells the nodes of all lists apart; `psn`
is whether `cl_psn` is there. -/
structure Replica where
  id : Nat
  sin : Str
  pid : Int
  psn : Bool

/-- What `wait` says of a child. -/
inductive WaitStatus where
  | exited (status : Nat)
  | signaled (sig : Nat)
  deriving DecidableEq

/-- A child that has not been waited for, and the node it was started for. It is
alive as long as it has no status. -/
structure Child where
  pid : Int
  node : Nat
  status : Option WaitStatus

/-- Where `pusherparent` is. -/
inductive ParentAt where
  /-- at the head of the loop -/
  | top
  /-- before the test of `childsig` -/
  | childs
  /-- in the loop of `waitpid` -/
  | waits
  | reads
  /-- in `mkpushers`, at the node `cur`; `first` is the call before the loop -/
  | spawns (first : Bool) (cur : Nat)
  /-- after the `fork` -/
  | forked (first : Bool) (cur : Nat)
  | selects
  /-- in the loop that writes the line -/
  | writes (cur : Nat)
  | gone
  deriving DecidableEq

structure Pushing where
  place : ParentAt
  replhead : List Replica
  children : List Child
  reconfig : Bool
  childsig : Bool
  /-- the nodes that were made so far -/
  made : Nat

/-- What `pusherhosts` makes of the addresses. -/
def freshList (made : Nat) (addrs : List Str) : List Replica :=
  (addrs.zipIdx made).map fun (sin, id) => ⟨id, sin, 0, false⟩

/-- `pusherparent`, with the list that `main` made. -/
def Pushing.start (addrs : List Str) : Pushing := ⟨.spawns true 0, freshList 0 addrs, [], false, false, addrs.length⟩

def sighup : Nat := 1

/-- The parent exits as well. -/
def WaitStatus.fatal : WaitStatus → Bool
  | .exited status => status ≠ 0 && status ≠ 1 && status ≠ 3
  | .signaled sig => sig ≠ sighup

/-- The search for a child that was waited for, and what becomes of its node: it is
marked, and with the exit status 3 it is unlinked. -/
def markExited (pid : Int) (status : WaitStatus) : List Replica → List Replica
  | [] => []
  | cur :: rest =>
    if pid = cur.pid then
      if status = .exited 3 then rest else { cur with pid := 0, psn := false } :: rest
    else cur :: markExited pid status rest

/-- What a step does to the list. -/
inductive ParentEv where
  | other
  | reload
  | waited (child : Child)

inductive Pushing.Step : ParentEv → Pushing → Pushing → Prop where
  /-- A child ends. -/
  | ends {l : Pushing} {child : Child} {before after : List Child} (status : WaitStatus)
      (hc : l.children = before ++ child :: after) (hlive : child.status = none) :
      Step .other l { l with children := before ++ { child with status := some status } :: after, childsig := true }
  /-- SIGHUP -/
  | hup (l : Pushing) : Step .other l { l with reconfig := true }
  /-- every `exit` -/
  | stop (l : Pushing) : Step .other l { l with place := .gone }
  /-- The children are sent a SIGHUP, and the list is replaced. -/
  | reload {l : Pushing} (addrs : List Str) (hp : l.place = .top) (hr : l.reconfig = true) :
      Step .reload l { l with
        place := .childs
        replhead := freshList l.made addrs
        reconfig := false
        made := l.made + addrs.length }
  | keep {l : Pushing} (hp : l.place = .top) (hr : l.reconfig = false) : Step .other l { l with place := .childs }
  | signaled {l : Pushing} (hp : l.place = .childs) (hs : l.childsig = true) :
      Step .other l { l with place := .waits, childsig := false }
  | quiet {l : Pushing} (hp : l.place = .childs) (hs : l.childsig = false) : Step .other l { l with place := .reads }
  /-- `waitpid` -/
  | waited {l : Pushing} {child : Child} {before after : List Child} {status : WaitStatus} (hp : l.place = .waits)
      (hc : l.children = before ++ child :: after) (hs : child.status = some status) :
      Step (.waited child) l { l with
        place := if status.fatal then .gone else .waits
        replhead := markExited child.pid status l.replhead
        children := before ++ after }
  | noneLeft {l : Pushing} (hp : l.place = .waits) (hc : ∀ child ∈ l.children, child.status = none) :
      Step .other l { l with place := .reads }
  /-- `snet_getline` -/
  | line {l : Pushing} (hp : l.place = .reads) : Step .other l { l with place := .spawns false 0 }
  /-- The node has a child. -/
  | busy {l : Pushing} {first : Bool} {before after : List Replica} {cur : Replica}
      (hp : l.place = .spawns first before.length) (hl : l.replhead = before ++ cur :: after) (hb : cur.pid ≠ 0) :
      Step .other l { l with place := .spawns first (before.length + 1) }
  /-- `fork` gives a pid no process has that is not waited for. -/
  | fork {l : Pushing} {first : Bool} {before after : List Replica} {cur : Replica} (pid : Int)
      (hp : l.place = .spawns first before.length) (hl : l.replhead = before ++ cur :: after) (hb : cur.pid = 0)
      (hpid : 0 < pid) (hfresh : ∀ child ∈ l.children, child.pid ≠ pid) :
      Step .other l { l with
        place := .forked first before.length
        replhead := before ++ { cur with pid } :: after
        children := l.children ++ [⟨pid, cur.id, none⟩] }
  /-- `snet_attach` -/
  | attach {l : Pushing} {first : Bool} {before after : List Replica} {cur : Replica}
      (hp : l.place = .forked first before.length) (hl : l.replhead = before ++ cur :: after) :
      Step .other l { l with
        place := .spawns first (before.length + 1)
        replhead := before ++ { cur with psn := true } :: after }
  | spawned {l : Pushing} {first : Bool} (hp : l.place = .spawns first l.replhead.length) :
      Step .other l { l with place := if first then .top else .selects }
  /-- `select`, which a signal may interrupt. -/
  | selected {l : Pushing} (interrupted : Bool) (hp : l.place = .selects) :
      Step .other l { l with place := if interrupted then .top else .writes 0 }
  /-- The line is written to the node, or not. -/
  | write {l : Pushing} {cur : Nat} (hp : l.place = .writes cur) (hcur : cur < l.replhead.length) :
      Step .other l { l with place := .writes (cur + 1) }
  | written {l : Pushing} (hp : l.place = .writes l.replhead.length) : Step .other l { l with place := .top }

inductive Pushing.Runs : Pushing → Pushing → Prop where
  | refl (l : Pushing) : Runs l l
  | tail {l m n : Pushing} {ev : ParentEv} (h : Runs l m) (hs : Pushing.Step ev m n) : Runs l n

/-! ## What holds of the list and the children -/

def Replica.slot (cur : Replica) : Nat × Option Int := (cur.id, if cur.pid = 0 then none else some cur.pid)
def Child.worker (child : Child) : Int × Nat := (child.pid, child.node)

/-- `cl_pid > 0` and `cl_psn` go together. -/
def Replica.Paired (cur : Replica) : Prop := 0 < cur.pid ↔ cur.psn = true

/-- What is known of the list at each place. `mkpushers` has come as far as `cur`. -/
def KnownAt (replhead : List Replica) : ParentAt → Prop
  | .spawns _ cur => (∀ x ∈ replhead, x.Paired) ∧ ∀ x ∈ replhead.take cur, 0 < x.pid
  | .forked _ cur => ∃ before x after, replhead = before ++ x :: after ∧ before.length = cur ∧ 0 < x.pid ∧
      (∀ y ∈ before ++ after, y.Paired) ∧ ∀ y ∈ before, 0 < y.pid
  | .selects | .writes _ => (∀ x ∈ replhead, x.Paired) ∧ ∀ x ∈ replhead, 0 < x.pid
  | .gone => True
  | _ => ∀ x ∈ replhead, x.Paired

structure Pushing.Sound (l : Pushing) : Prop where
  matched : Matched (l.replhead.map Replica.slot) (l.children.map Child.worker) (· < l.made)
  pos : ∀ child ∈ l.children, 0 < child.pid
  placed : KnownAt l.replhead l.place

theorem freshList_map_id (made : Nat) (addrs : List Str) :
    (freshList made addrs).map (·.id) = List.range' made addrs.length := by
  induction addrs generalizing made with
  | nil => rfl
  | cons a addrs ih =>
    have := ih (made + 1)
    simpa [freshList, List.zipIdx_cons, List.range'_succ] using this

theorem mem_freshList {made : Nat} {addrs : List Str} {cur : Replica} (h : cur ∈ freshList made addrs) :
    cur.pid = 0 ∧ cur.psn = false ∧ made ≤ cur.id ∧ cur.id < made + addrs.length := by
  have hid : cur.id ∈ List.range' made addrs.length := by
    rw [← freshList_map_id]
    exact List.mem_map_of_mem h
  obtain ⟨⟨sin, id⟩, -, rfl⟩ := List.mem_map.1 h
  rw [List.mem_range'_1] at hid
  exact ⟨rfl, rfl, hid⟩

theorem freshList_paired {made : Nat} {addrs : List Str} : ∀ x ∈ freshList made addrs, x.Paired := by
  intro x hx
  obtain ⟨hpid, hpsn, -⟩ := mem_freshList hx
  simp [Replica.Paired, hpid, hpsn]

theorem map_slot_fst (l : List Replica) : (l.map Replica.slot).map (·.1) = l.map (·.id) := by
  rw [List.map_map]
  rfl

theorem matched_fresh {slots : List (Nat × Option Int)} {workers : List (Int × Nat)} {made : Nat} (addrs : List Str)
    (h : Matched slots workers (· < made)) :
    Matched ((freshList made addrs).map Replica.slot) workers (· < made + addrs.length) := by
  refine h.replace ?_ ?_ ?_ ?_ fun i hi => Nat.lt_of_lt_of_le hi (Nat.le_add_right _ _)
  · rw [map_slot_fst, freshList_map_id]
    exact List.nodup_range'
  · intro s hs
    obtain ⟨cur, hcur, rfl⟩ := List.mem_map.1 hs
    simp [Replica.slot, (mem_freshList hcur).1]
  · intro s hs
    obtain ⟨cur, hcur, rfl⟩ := List.mem_map.1 hs
    exact Nat.not_lt.2 (mem_freshList hcur).2.2.1
  · intro s hs
    obtain ⟨cur, hcur, rfl⟩ := List.mem_map.1 hs
    exact (mem_freshList hcur).2.2.2

theorem start_sound (addrs : List Str) : (Pushing.start addrs).Sound where
  matched := by
    have hnone : Matched ([] : List (Nat × Option Int)) ([] : List (Int × Nat)) (· < 0) :=
      ⟨by simp, by simp, by simp, by simp, by simp, by simp⟩
    simpa [Pushing.start] using matched_fresh addrs hnone
  pos := by simp [Pushing.start]
  placed := ⟨freshList_paired, by simp⟩

/-! ## A child is waited for -/

theorem markExited_absent {pid : Int} {status : WaitStatus} {l : List Replica} (h : ∀ cur ∈ l, pid ≠ cur.pid) :
    markExited pid status l = l := by
  induction l with
  | nil => rfl
  | cons cur l ih =>
    obtain ⟨hcur, hl⟩ := List.forall_mem_cons.1 h
    rw [markExited, if_neg hcur, ih hl]

theorem markExited_found {pid : Int} {status : WaitStatus} {before after : List Replica} {cur : Replica}
    (h : ∀ x ∈ before, pid ≠ x.pid) (hcur : pid = cur.pid) : markExited pid status (before ++ cur :: after) =
      before ++ if status = .exited 3 then after else { cur with pid := 0, psn := false } :: after := by
  induction before with
  | nil => rw [List.nil_append, markExited, if_pos hcur, List.nil_append]
  | cons x before ih =>
    obtain ⟨hx, hbefore⟩ := List.forall_mem_cons.1 h
    rw [List.cons_append, markExited, if_neg hx, ih hbefore, List.cons_append]

/-- The search finds the child's own node, or none. -/
theorem exists_first (pid : Int) (l : List Replica) : (∀ cur ∈ l, pid ≠ cur.pid) ∨
    ∃ before cur after, l = before ++ cur :: after ∧ (∀ x ∈ before, pid ≠ x.pid) ∧ pid = cur.pid := by
  induction l with
  | nil => exact .inl (by simp)
  | cons x l ih =>
    by_cases hx : pid = x.pid
    · exact .inr ⟨[], x, l, rfl, by simp, hx⟩
    · rcases ih with hall | ⟨before, cur, after, rfl, hbefore, hcur⟩
      · exact .inl (List.forall_mem_cons.2 ⟨hx, hall⟩)
      · exact .inr ⟨x :: before, cur, after, rfl, List.forall_mem_cons.2 ⟨hx, hbefore⟩, hcur⟩

theorem slot_ne {cur : Replica} {pid : Int} (h : pid ≠ cur.pid) : cur.slot.2 ≠ some pid := by
  unfold Replica.slot
  split
  · simp
  · simpa using fun he => h he.symm

theorem markExited_paired {pid : Int} {status : WaitStatus} {l : List Replica} (h : ∀ x ∈ l, x.Paired) :
    ∀ x ∈ markExited pid status l, x.Paired := by
  induction l with
  | nil => simp [markExited]
  | cons cur l ih =>
    obtain ⟨hcur, hl⟩ := List.forall_mem_cons.1 h
    rw [markExited]
    split
    · split
      · exact hl
      · exact List.forall_mem_cons.2 ⟨by simp [Replica.Paired], hl⟩
    · exact List.forall_mem_cons.2 ⟨hcur, ih hl⟩

/-- A child that is waited for, in its list. -/
theorem waited_matched {replhead : List Replica} {before after : List Child} {child : Child} {made : Nat}
    (status : WaitStatus) (hpos : 0 < child.pid)
    (h : Matched (replhead.map Replica.slot) ((before ++ child :: after).map Child.worker) (· < made)) :
    Matched ((markExited child.pid status replhead).map Replica.slot) ((before ++ after).map Child.worker) (· < made) ∧
      ∀ cur ∈ replhead, (∀ cur' ∈ markExited child.pid status replhead, cur'.id ≠ cur.id) →
        child.node = cur.id ∧ status = .exited 3 := by
  rw [List.map_append, List.map_cons] at h
  rw [List.map_append]
  rcases exists_first child.pid replhead with hnone | ⟨rbefore, cur, rafter, rfl, hbefore, hcur⟩
  · -- a child of an older list
    rw [markExited_absent hnone]
    refine ⟨h.collect fun s hs => ?_, fun cur hcur hgone => absurd rfl (hgone cur hcur)⟩
    obtain ⟨cur, hcur, rfl⟩ := List.mem_map.1 hs
    exact slot_ne (hnone cur hcur)
  · have hslot : cur.slot = (cur.id, some child.pid) := by
      rw [Replica.slot, if_neg (by omega), hcur]
    rw [List.map_append, List.map_cons, hslot] at h
    obtain ⟨hnode, hcollected⟩ := h.collect_own
    rw [markExited_found hbefore hcur]
    split
    · next h3 =>
      refine ⟨by rw [List.map_append]; exact hcollected.drop, fun x hx hgone => ?_⟩
      rcases mem_middle.1 hx with rfl | hx
      · exact ⟨hnode, h3⟩
      · exact absurd rfl (hgone x hx)
    · refine ⟨by simpa [Replica.slot] using hcollected, fun x hx hgone => ?_⟩
      rcases mem_middle.1 hx with rfl | hx
      · exact absurd rfl (hgone { x with pid := 0, psn := false } (by simp))
      · exact absurd rfl (hgone x (mem_middle.2 (.inr hx)))

/-! ## Every step -/

theorem paired_of_placed {l : List Replica} {place : ParentAt} (h : KnownAt l place)
    (hne : place ≠ .gone ∧ ∀ first cur, place ≠ .forked first cur) : ∀ x ∈ l, x.Paired := by
  cases place with
  | gone => exact absurd rfl hne.1
  | forked first cur => exact absurd rfl (hne.2 first cur)
  | spawns first cur => exact h.1
  | selects => exact h.1
  | writes cur => exact h.1
  | _ => exact h

/-- `mkpushers` has come one node further. -/
theorem pos_take_succ {before after : List Replica} {cur : Replica} (hbefore : ∀ x ∈ before, 0 < x.pid) (hcur : 0 < cur.pid) :
    ∀ x ∈ (before ++ cur :: after).take (before.length + 1), 0 < x.pid := by
  rw [List.take_append, List.take_of_length_le (by omega), show before.length + 1 - before.length = 1 by omega]
  intro x hx
  rcases List.mem_append.1 hx with hx | hx
  · exact hbefore x hx
  · obtain rfl : x = cur := by simpa using hx
    exact hcur

theorem sound_step {ev : ParentEv} {l l' : Pushing} (h : Pushing.Step ev l l') (hl : l.Sound) : l'.Sound := by
  obtain ⟨hmatched, hpos, hplaced⟩ := hl
  cases h with
  | @ends _ child before after status hc hlive =>
    refine ⟨?_, fun c hc' => ?_, hplaced⟩
    · rw [hc] at hmatched
      simpa [Child.worker] using hmatched
    · rcases mem_middle.1 hc' with rfl | hc'
      · exact hpos child (by rw [hc]; exact mem_middle.2 (.inl rfl))
      · exact hpos c (by rw [hc]; exact mem_middle.2 (.inr hc'))
  | hup => exact ⟨hmatched, hpos, hplaced⟩
  | stop => exact ⟨hmatched, hpos, trivial⟩
  | reload addrs hp hr => exact ⟨matched_fresh addrs hmatched, hpos, freshList_paired⟩
  | keep hp hr => exact ⟨hmatched, hpos, paired_of_placed hplaced (by simp [hp])⟩
  | signaled hp hs => exact ⟨hmatched, hpos, paired_of_placed hplaced (by simp [hp])⟩
  | quiet hp hs => exact ⟨hmatched, hpos, paired_of_placed hplaced (by simp [hp])⟩
  | @waited _ child before after status hp hc hs =>
    have hchild := hpos child (by rw [hc]; exact mem_middle.2 (.inl rfl))
    rw [hc] at hmatched
    refine ⟨(waited_matched status hchild hmatched).1, fun c hc' => hpos c (by rw [hc]; exact mem_middle.2 (.inr hc')), ?_⟩
    dsimp only
    split
    · trivial
    · exact markExited_paired (paired_of_placed hplaced (by simp [hp]))
  | noneLeft hp hc => exact ⟨hmatched, hpos, paired_of_placed hplaced (by simp [hp])⟩
  | line hp => exact ⟨hmatched, hpos, paired_of_placed hplaced (by simp [hp]), by simp⟩
  | @busy _ first before after cur hp hhead hb =>
    rw [hp, hhead] at hplaced
    obtain ⟨hpaired, hbefore⟩ := hplaced
    rw [List.take_left'  rfl] at hbefore
    refine ⟨hmatched, hpos, ?_, ?_⟩
    · rw [hhead]; exact hpaired
    · -- a pid that is not 0 is a child's
      have hown := hmatched.own cur.id cur.pid (List.mem_map.2 ⟨cur, by rw [hhead]; exact mem_middle.2 (.inl rfl), by
        rw [Replica.slot, if_neg hb]⟩)
      obtain ⟨child, hchild, hworker⟩ := List.mem_map.1 hown
      have hcur : 0 < cur.pid := (Prod.mk.inj hworker).1 ▸ hpos child hchild
      rw [hhead]
      exact pos_take_succ hbefore hcur
  -- the new pid is no other child's, so it is in no other node
  | @fork _ first before after cur pid hp hhead hb hpid hfresh =>
    rw [hp, hhead] at hplaced
    obtain ⟨hpaired, hbefore⟩ := hplaced
    rw [List.take_left' rfl] at hbefore
    refine ⟨?_, fun c hc => ?_, before, _, after, rfl, rfl, hpid, fun y hy => hpaired y (mem_middle.2 (.inr hy)), hbefore⟩
    · have hslot : cur.slot = (cur.id, none) := by rw [Replica.slot, if_pos hb]
      rw [hhead, List.map_append, List.map_cons, hslot] at hmatched
      have hnew : pid ∉ (l.children.map Child.worker).map (·.1) := by
        rw [List.map_map, List.mem_map]
        rintro ⟨child, hchild, rfl⟩
        exact hfresh child hchild rfl
      simpa [Replica.slot, Child.worker, Int.ne_of_gt hpid] using hmatched.start hnew
    · rcases List.mem_append.1 hc with hc | hc
      · exact hpos c hc
      · rw [List.mem_singleton.1 hc]; exact hpid
  | @attach _ first before after cur hp hhead =>
    rw [hp, hhead] at hplaced
    obtain ⟨before', x, after', heq, hlen, hx, hpaired, hbefore⟩ := hplaced
    obtain ⟨rfl, hrest⟩ := List.append_inj heq hlen.symm
    obtain ⟨rfl, rfl⟩ := List.cons.inj hrest
    refine ⟨?_, hpos, fun y hy => ?_, ?_⟩
    · rw [hhead] at hmatched
      simpa [Replica.slot] using hmatched
    · rcases mem_middle.1 hy with rfl | hy
      · simpa [Replica.Paired] using hx
      · exact hpaired y hy
    · exact pos_take_succ hbefore hx
  | @spawned _ first hp =>
    rw [hp] at hplaced
    obtain ⟨hpaired, hall⟩ := hplaced
    rw [List.take_length] at hall
    refine ⟨hmatched, hpos, ?_⟩
    dsimp only
    split
    · exact hpaired
    · exact ⟨hpaired, hall⟩
  | selected interrupted hp =>
    rw [hp] at hplaced
    refine ⟨hmatched, hpos, ?_⟩
    dsimp only
    split
    · exact hplaced.1
    · exact hplaced
  | write hp hcur =>
    rw [hp] at hplaced
    exact ⟨hmatched, hpos, hplaced⟩
  | written hp => exact ⟨hmatched, hpos, paired_of_placed hplaced (by simp [hp])⟩

theorem runs_sound {addrs : List Str} {l : Pushing} (h : Pushing.Runs (Pushing.start addrs) l) : l.Sound := by
  generalize hs : Pushing.start addrs = s at h
  induction h with
  | refl => subst hs; exact start_sound addrs
  | tail _ hstep ih => exact sound_step hstep ih

/-! ## The list where it is used -/

/-- Each node's child and its pipe go together, the pids differ, and no node has
two children alive. -/
structure Pushing.Right (l : Pushing) : Prop where
  paired : ∀ cur ∈ l.replhead, 0 < cur.pid ↔ cur.psn = true
  distinct : (l.replhead.map (·.pid)).Nodup
  single : ∀ cur ∈ l.replhead, (l.children.filter fun child => child.status.isNone && child.node = cur.id).length ≤ 1

/-- The parent selects, or writes the line. -/
def Pushing.Uses (l : Pushing) : Prop := l.place = .selects ∨ ∃ cur, l.place = .writes cur

theorem length_le_one {α β : Type} {f : α → β} {l : List α} (hnodup : (l.map f).Nodup)
    (h : ∀ a ∈ l, ∀ b ∈ l, f a = f b) : l.length ≤ 1 := by
  match l with
  | [] => simp
  | [_] => simp
  | a :: b :: l =>
    have heq := h a (by simp) b (by simp)
    simp [heq] at hnodup

theorem Pushing.Sound.right {l : Pushing} (h : l.Sound) (hu : l.Uses) : l.Right := by
  obtain ⟨hpaired, hpos⟩ : (∀ x ∈ l.replhead, x.Paired) ∧ ∀ x ∈ l.replhead, 0 < x.pid := by
    have hplaced := h.placed
    rcases hu with hp | ⟨cur, hp⟩
    · rw [hp] at hplaced; exact hplaced
    · rw [hp] at hplaced; exact hplaced
  have hids : (l.replhead.map (·.id)).Nodup := by
    rw [← map_slot_fst]
    exact h.matched.ids
  have hslot : ∀ x ∈ l.replhead, (x.id, some x.pid) ∈ l.replhead.map Replica.slot := by
    intro x hx
    have := hpos x hx
    exact List.mem_map.2 ⟨x, hx, by rw [Replica.slot, if_neg (by omega)]⟩
  refine ⟨hpaired, ?_, fun cur hcur => ?_⟩
  · refine List.Nodup.map_on (fun x hx y hy heq => ?_) (List.Nodup.of_map _ hids)
    have hx' := hslot x hx
    rw [heq] at hx'
    exact List.inj_on_of_nodup_map hids hx hy (h.matched.slot_inj hx' (hslot y hy))
  · have hnames : (l.children.map (·.pid)).Nodup := by simpa [Child.worker, Function.comp_def] using h.matched.names
    refine length_le_one (f := (·.pid)) (hnames.sublist (List.filter_sublist.map _)) fun a ha b hb => ?_
    simp only [List.mem_filter, Bool.and_eq_true, decide_eq_true_eq] at ha hb
    refine h.matched.one_worker (hslot cur hcur) ?_ ?_
    · exact List.mem_map.2 ⟨a, ha.1, by rw [Child.worker, ha.2.2]⟩
    · exact List.mem_map.2 ⟨b, hb.1, by rw [Child.worker, hb.2.2]⟩

/-- The step takes the node off the list. -/
def Drops (l l' : Pushing) (cur : Replica) : Prop := cur ∈ l.replhead ∧ ∀ cur' ∈ l'.replhead, cur'.id ≠ cur.id

theorem drops_step {ev : ParentEv} {l l' : Pushing} (h : Pushing.Step ev l l') (hl : l.Sound) {cur : Replica}
    (hd : Drops l l' cur) : ev = .reload ∨
      ∃ child ∈ l.children, ev = .waited child ∧ child.node = cur.id ∧ child.status = some (.exited 3) := by
  obtain ⟨hcur, hgone⟩ := hd
  cases h with
  | reload => exact .inl rfl
  | @waited _ child before after status hp hc hs =>
    have hmem : child ∈ l.children := by rw [hc]; exact mem_middle.2 (.inl rfl)
    have hmatched := hl.matched
    rw [hc] at hmatched
    obtain ⟨hnode, h3⟩ := (waited_matched status (hl.pos child hmem) hmatched).2 cur hcur hgone
    exact .inr ⟨child, hmem, rfl, hnode, by rw [hs, h3]⟩
  | @fork _ first before after x pid hp hhead =>
    rw [hhead] at hcur
    rcases mem_middle.1 hcur with rfl | hcur
    · exact absurd rfl (hgone { cur with pid } (mem_middle.2 (.inl rfl)))
    · exact absurd rfl (hgone _ (mem_middle.2 (.inr hcur)))
  | @attach _ first before after x hp hhead =>
    rw [hhead] at hcur
    rcases mem_middle.1 hcur with rfl | hcur
    · exact absurd rfl (hgone { cur with psn := true } (mem_middle.2 (.inl rfl)))
    · exact absurd rfl (hgone _ (mem_middle.2 (.inr hcur)))
  | _ => exact absurd rfl (hgone cur hcur)

/-- Where the parent uses the list, it is right, and a node leaves it only for
another list or when its own child exits with 3. -/
theorem pusherparent_right {addrs : List Str} {l : Pushing} (h : Pushing.Runs (Pushing.start addrs) l) :
    (l.Uses → l.Right) ∧ ∀ ev l', Pushing.Step ev l l' → ∀ cur, Drops l l' cur → ev = .reload ∨
      ∃ child ∈ l.children, ev = .waited child ∧ child.node = cur.id ∧ child.status = some (.exited 3) :=
  ⟨(runs_sound h).right, fun _ _ hstep _ hd => drops_step hstep (runs_sound h) hd⟩

/-- Three addresses of replicas. -/
def replicaAddr (i : Nat) : Str := "10.0.0.".toList ++ dec i

/-- A node with its child. -/
def replicaUp (id i : Nat) (pid : Int) : Replica := ⟨id, replicaAddr i, pid, true⟩

/-- The second replica's pusher has ended with 3, and was not waited for yet. -/
def secondEnded : Pushing :=
  ⟨.waits, [replicaUp 0 1 7, replicaUp 1 2 8], [⟨7, 0, none⟩, ⟨8, 1, some (.exited 3)⟩], false, false, 2⟩

/-- Its node is gone. -/
def secondDropped : Pushing := ⟨.waits, [replicaUp 0 1 7], [⟨7, 0, none⟩], false, false, 2⟩

/-- The list was replaced by one with another replica, and the first one's child
has not ended yet. -/
def thirdUp : Pushing := ⟨.selects, [replicaUp 2 3 9], [⟨7, 0, none⟩, ⟨9, 2, none⟩], false, false, 3⟩

theorem secondEnded_runs : Pushing.Runs (Pushing.start [replicaAddr 1, replicaAddr 2]) secondEnded := by
  let l := secondEnded
  let second : Child := ⟨8, 1, none⟩
  let idle : Replica := ⟨1, replicaAddr 2, 0, false⟩
  refine .tail ?_ (@Pushing.Step.signaled { l with place := .childs, childsig := true } rfl rfl)
  refine .tail ?_ (@Pushing.Step.ends { l with place := .childs, children := [⟨7, 0, none⟩, second] } second [⟨7, 0, none⟩] []
    (.exited 3) rfl rfl)
  refine .tail ?_ (@Pushing.Step.keep { l with place := .top, children := [⟨7, 0, none⟩, second] } rfl rfl)
  refine .tail ?_ (@Pushing.Step.spawned { l with place := .spawns true 2, children := [⟨7, 0, none⟩, second] } true rfl)
  refine .tail ?_ (@Pushing.Step.attach { l with
      place := .forked true 1
      replhead := [replicaUp 0 1 7, { idle with pid := 8 }]
      children := [⟨7, 0, none⟩, second] } true [replicaUp 0 1 7] [] { idle with pid := 8 } rfl rfl)
  refine .tail ?_ (@Pushing.Step.fork { l with
      place := .spawns true 1
      replhead := [replicaUp 0 1 7, idle]
      children := [⟨7, 0, none⟩] } true [replicaUp 0 1 7] [] idle 8 rfl rfl rfl (by decide) (by simp))
  refine .tail ?_ (@Pushing.Step.attach { l with
      place := .forked true 0
      replhead := [⟨0, replicaAddr 1, 7, false⟩, idle]
      children := [⟨7, 0, none⟩] } true [] [idle] ⟨0, replicaAddr 1, 7, false⟩ rfl rfl)
  exact .tail (.refl _) (@Pushing.Step.fork (Pushing.start [replicaAddr 1, replicaAddr 2]) true [] [idle]
    ⟨0, replicaAddr 1, 0, false⟩ 7 rfl rfl rfl (by decide) (fun child hchild => by cases hchild))

theorem second_waited : Pushing.Step (.waited ⟨8, 1, some (.exited 3)⟩) secondEnded secondDropped :=
  @Pushing.Step.waited secondEnded ⟨8, 1, some (.exited 3)⟩ [⟨7, 0, none⟩] [] (.exited 3) rfl rfl rfl

theorem thirdUp_runs : Pushing.Runs (Pushing.start [replicaAddr 1, replicaAddr 2]) thirdUp := by
  let l := thirdUp
  let fresh : Replica := ⟨2, replicaAddr 3, 0, false⟩
  refine .tail ?_ (@Pushing.Step.spawned { l with place := .spawns false 1 } false rfl)
  refine .tail ?_ (@Pushing.Step.attach { l with place := .forked false 0, replhead := [{ fresh with pid := 9 }] } false [] []
    { fresh with pid := 9 } rfl rfl)
  refine .tail ?_ (@Pushing.Step.fork { l with
      place := .spawns false 0
      replhead := [fresh]
      children := [⟨7, 0, none⟩] } false [] [] fresh 9 rfl rfl rfl (by decide) (by simp))
  refine .tail ?_ (@Pushing.Step.line { l with place := .reads, replhead := [fresh], children := [⟨7, 0, none⟩] } rfl)
  refine .tail ?_ (@Pushing.Step.quiet { l with place := .childs, replhead := [fresh], children := [⟨7, 0, none⟩] } rfl rfl)
  refine .tail ?_ (@Pushing.Step.reload { secondDropped with place := .top, reconfig := true } [replicaAddr 3] rfl rfl)
  refine .tail ?_ (@Pushing.Step.hup { secondDropped with place := .top })
  refine .tail ?_ (@Pushing.Step.selected { secondDropped with place := .selects } true rfl)
  refine .tail ?_ (@Pushing.Step.spawned { secondDropped with place := .spawns false 1 } false rfl)
  refine .tail ?_ (@Pushing.Step.busy { secondDropped with place := .spawns false 0 } false [] [] (replicaUp 0 1 7) rfl rfl
    (by decide))
  refine .tail ?_ (@Pushing.Step.line { secondDropped with place := .reads } rfl)
  exact .tail (.tail secondEnded_runs second_waited) (@Pushing.Step.noneLeft secondDropped rfl (by simp [secondDropped]))

/-- Two replicas, one of which ends with 3 and is dropped, and a reload: the list is
right where the next line is pushed. -/
theorem replicas_right : Pushing.Runs (Pushing.start [replicaAddr 1, replicaAddr 2]) thirdUp ∧ thirdUp.Right ∧
    ∃ child ∈ secondEnded.children, Pushing.Step (.waited child) secondEnded secondDropped ∧
      Drops secondEnded secondDropped (replicaUp 1 2 8) ∧ child.node = (replicaUp 1 2 8).id ∧ child.status = some (.exited 3) := by
  have hdrops : Drops secondEnded secondDropped (replicaUp 1 2 8) :=
    ⟨by simp [secondEnded], by simp [secondDropped, replicaUp]⟩
  refine ⟨thirdUp_runs, (pusherparent_right thirdUp_runs).1 (.inl rfl), ?_⟩
  rcases (pusherparent_right secondEnded_runs).2 _ _ second_waited _ hdrops with h | ⟨child, hmem, hev, hnode, hstatus⟩
  · cases h
  · exact ⟨child, hmem, hev ▸ second_waited, hdrops, hnode, hstatus⟩

end Cosign
