import OpenOS.Process.Scheduler
import OpenOS.Lib.Chain

/-! The ready queues of `scheduler.c` as lists of slots. `QueuesOk s qs` says that the head
pointer of each level threads the list `qs q` through the `next` links and that its tail
pointer names the list's last slot, with no slot on two levels. Over it each queue operation
refines an operation on the lists: `scheduler_enqueue` appends (`push`), while
`scheduler_dequeue` and `pick_next` remove (`drop`); none of them changes what a slot is, only
where it is linked. -/
namespace OpenOS.Process

open Linked

/-- The `next` links of the table. -/
def link (s : State) (p : Slot) : Option Slot := (s.table p).next

@[simp] theorem link_mk (table : Slot → Pcb) (nextPid : Nat) (current : Slot)
    (heads tails : Level → Option Slot) (started : Bool) (switches ticks : Nat) :
    link ⟨table, nextPid, current, heads, tails, started, switches, ticks⟩ =
      fun p => (table p).next := rfl

theorem link_modify (s : State) (p r : Slot) (f : Pcb → Pcb) :
    link (s.modify p f) r = if r = p then (f (s.table p)).next else link s r := by
  by_cases h : r = p
  · subst h; simp [link]
  · simp [link, h]

/-- What the scheduler's invariant reads of a PCB besides its link: the pid, the state and
the two priorities. -/
def Pcb.attrs (pcb : Pcb) : Nat × ProcessState × Nat × Nat :=
  (pcb.pid, pcb.state, pcb.priority, pcb.basePriority)

/-- `s'` agrees with `s` on every slot's attributes, on the current process and on whether
scheduling has started. -/
structure Keeps (s s' : State) : Prop where
  attrs : ∀ r, (s'.table r).attrs = (s.table r).attrs
  current : s'.current = s.current
  started : s'.started = s.started

variable {s s' s'' : State} {qs : Level → List Slot} {p r : Slot} {l q : Level}

theorem Keeps.refl (s : State) : Keeps s s := ⟨fun _ => rfl, rfl, rfl⟩

theorem Keeps.trans (h : Keeps s s') (h' : Keeps s' s'') : Keeps s s'' :=
  ⟨fun r => (h'.attrs r).trans (h.attrs r), h'.current.trans h.current,
    h'.started.trans h.started⟩

theorem Keeps.modify (s : State) (p : Slot) {f : Pcb → Pcb}
    (hf : (f (s.table p)).attrs = (s.table p).attrs) : Keeps s (s.modify p f) where
  attrs r := by
    by_cases h : r = p
    · subst h; simpa using hf
    · simp [h]
  current := rfl
  started := rfl

structure QueuesOk (s : State) (qs : Level → List Slot) : Prop where
  chain : ∀ q, Chain (link s) (s.queueHead q) (qs q)
  tail : ∀ q, s.queueTail q = (qs q).getLast?
  disjoint : ∀ {q q' p}, p ∈ qs q → p ∈ qs q' → q = q'

theorem QueuesOk.nodup (h : QueuesOk s qs) (q : Level) : (qs q).Nodup := (h.chain q).nodup

theorem QueuesOk.length_le (h : QueuesOk s qs) (q : Level) : (qs q).length ≤ processMax := by
  simpa using (h.chain q).length_le

theorem QueuesOk.head (h : QueuesOk s qs) (q : Level) : s.queueHead q = (qs q).head? :=
  (h.chain q).head?

theorem QueuesOk.congr (h : QueuesOk s qs) (heads : s'.queueHead = s.queueHead)
    (tails : s'.queueTail = s.queueTail) (links : ∀ q, ∀ r ∈ qs q, link s' r = link s r) :
    QueuesOk s' qs where
  chain q := by rw [heads]; exact (h.chain q).frame (links q)
  tail q := by rw [tails]; exact h.tail q
  disjoint := h.disjoint

theorem QueuesOk.switch (h : QueuesOk s qs) (c : Slot) (n : Nat) :
    QueuesOk { s with current := c, contextSwitches := n } qs :=
  h.congr rfl rfl fun _ _ _ => rfl

/-- The frame rule of one level: a state that keeps the pointers of every other level and
the links of their slots, and threads a new list `L` at `l`, is well formed over the lists
updated at `l`. -/
theorem QueuesOk.update (h : QueuesOk s qs) {L : List Slot}
    (heads : ∀ q, q ≠ l → s'.queueHead q = s.queueHead q)
    (tails : ∀ q, q ≠ l → s'.queueTail q = s.queueTail q)
    (links : ∀ q, q ≠ l → ∀ r ∈ qs q, link s' r = link s r)
    (chain : Chain (link s') (s'.queueHead l) L) (tail : s'.queueTail l = L.getLast?)
    (apart : ∀ r ∈ L, ∀ q, q ≠ l → r ∉ qs q) :
    QueuesOk s' (Function.update qs l L) where
  chain q := by
    by_cases hq : q = l
    · subst hq; simpa using chain
    · rw [Function.update_of_ne hq, heads q hq]
      exact (h.chain q).frame (links q hq)
  tail q := by
    by_cases hq : q = l
    · subst hq; simpa using tail
    · rw [Function.update_of_ne hq, tails q hq, h.tail q]
  disjoint := by
    intro q q' r mem mem'
    by_cases hq : q = l <;> by_cases hq' : q' = l
    · rw [hq, hq']
    · subst hq
      simp only [Function.update_self] at mem
      rw [Function.update_of_ne hq'] at mem'
      exact absurd mem' (apart r mem q' hq')
    · subst hq'
      simp only [Function.update_self] at mem'
      rw [Function.update_of_ne hq] at mem
      exact absurd mem (apart r mem' q hq)
    · rw [Function.update_of_ne hq] at mem
      rw [Function.update_of_ne hq'] at mem'
      exact h.disjoint mem mem'

/-! ### The operations on the lists -/

/-- Appending `p` to level `l`. -/
def push (qs : Level → List Slot) (l : Level) (p : Slot) : Level → List Slot :=
  Function.update qs l (qs l ++ [p])

/-- Removing `p` from whichever level holds it. -/
def drop (qs : Level → List Slot) (p : Slot) : Level → List Slot := fun q => (qs q).erase p

theorem mem_push : r ∈ push qs l p q ↔ r ∈ qs q ∨ q = l ∧ r = p := by
  by_cases hq : q = l
  · subst hq; simp [push]
  · simp [push, hq]

theorem QueuesOk.mem_drop (h : QueuesOk s qs) : r ∈ drop qs p q ↔ r ≠ p ∧ r ∈ qs q :=
  (h.nodup q).mem_erase_iff

theorem drop_of_not_mem (fresh : ∀ q, p ∉ qs q) : drop qs p = qs :=
  funext fun q => List.erase_of_not_mem (fresh q)

theorem QueuesOk.drop_eq (h : QueuesOk s qs) (mem : p ∈ qs l) :
    drop qs p = Function.update qs l ((qs l).erase p) := by
  funext q
  by_cases hq : q = l
  · subst hq; simp [drop]
  · rw [Function.update_of_ne hq]
    exact List.erase_of_not_mem fun mem' => hq (h.disjoint mem' mem)

/-! ### `scheduler_enqueue` -/

theorem enqueue_of_pid_zero (h : (s.table p).pid = 0) : enqueue p s = s := by
  simp [enqueue, h]

theorem enqueue_keeps (p : Slot) (s : State) : Keeps s (enqueue p s) := by
  unfold enqueue
  split
  · exact Keeps.refl s
  · dsimp only
    have first := Keeps.modify s p (f := fun pcb => { pcb with next := none, waitTicks := 0 }) rfl
    split
    · next t _ =>
      have second := Keeps.modify (s.modify p fun pcb => { pcb with next := none, waitTicks := 0 }) t
        (f := fun pcb => { pcb with next := some p }) rfl
      exact first.trans ⟨second.attrs, second.current, second.started⟩
    · exact ⟨first.attrs, first.current, first.started⟩

/-- Appending a slot that is on no level: `scheduler_enqueue` refines `push` at the level of
the slot's priority. -/
theorem enqueue_queues (h : QueuesOk s qs) (fresh : ∀ q, p ∉ qs q)
    (pid : (s.table p).pid ≠ 0) :
    QueuesOk (enqueue p s) (push qs (levelOf (s.table p).priority) p) := by
  unfold enqueue push
  rw [if_neg pid]
  dsimp only
  simp only [State.modify_queueTail, State.modify_table, Function.update_self]
  -- the other levels: their slots are neither `p` nor the old tail
  have away : ∀ t q, t ∈ qs (levelOf (s.table p).priority) → q ≠ levelOf (s.table p).priority →
      ∀ r ∈ qs q, r ≠ t ∧ r ≠ p := fun t q tIn hq r mem =>
    ⟨fun e => hq (h.disjoint mem (e ▸ tIn)), fun e => fresh q (e ▸ mem)⟩
  have apart : ∀ r ∈ qs (levelOf (s.table p).priority) ++ [p], ∀ q,
      q ≠ levelOf (s.table p).priority → r ∉ qs q := by
    intro r mem q hq mem'
    rcases List.mem_append.mp mem with old | new
    · exact hq (h.disjoint mem' old)
    · exact fresh q (List.mem_singleton.mp new ▸ mem')
  split
  · next t last =>
    have lastEq := (h.tail _).symm.trans last
    have tIn := List.mem_of_getLast? lastEq
    have tp : t ≠ p := fun e => fresh _ (e ▸ tIn)
    refine h.update (fun q _ => rfl) (fun q hq => by simp [hq]) ?_ ?_ (by simp) apart
    · intro q hq r mem
      obtain ⟨rt, rp⟩ := away t q tIn hq r mem
      simp [link, rt, rp]
    · refine (h.chain _).snoc lastEq (fresh _) ?_ (by simp [link]) (by simp [link, tp.symm])
      intro a mem at'
      have ap : a ≠ p := fun e => fresh _ (e ▸ mem)
      simp [link, at', ap]
  · next last =>
    have empty : qs (levelOf (s.table p).priority) = [] :=
      List.getLast?_eq_none_iff.mp ((h.tail _).symm.trans last)
    refine h.update (fun q hq => by simp [hq]) (fun q hq => by simp [hq]) ?_ ?_ (by simp) apart
    · intro q hq r mem
      have rp : r ≠ p := fun e => fresh q (e ▸ mem)
      simp [link, rp]
    · simp only [empty, Function.update_self, List.nil_append]
      exact Chain.singleton (by simp)

theorem Keeps.of_table (table : s'.table = s.table) (current : s'.current = s.current)
    (started : s'.started = s.started) : Keeps s s' :=
  ⟨fun r => by rw [table], current, started⟩

/-! ### `scheduler_dequeue` -/

theorem unlinkAt_link (it : Slot) (l : Level) (prev : Option Slot) (s : State) (r : Slot) :
    link (unlinkAt it l prev s) r =
      if r = it then none else if prev = some r then link s it else link s r := by
  cases prev with
  | none => by_cases hr : r = it <;> simp [unlinkAt, link, hr]
  | some pr =>
    by_cases hr : r = it
    · simp [unlinkAt, link, hr]
    · by_cases hpr : r = pr
      · subst hpr; simp [unlinkAt, link, hr, Ne.symm hr]
      · simp [unlinkAt, link, hr, hpr, Ne.symm hpr]

theorem unlinkAt_queueHead (it : Slot) (l : Level) (prev : Option Slot) (s : State) :
    (unlinkAt it l prev s).queueHead =
      if prev = none then Function.update s.queueHead l (link s it) else s.queueHead := by
  cases prev <;> rfl

theorem unlinkAt_queueTail (it : Slot) (l : Level) (prev : Option Slot) (s : State) :
    (unlinkAt it l prev s).queueTail =
      if s.queueTail l = some it then Function.update s.queueTail l prev else s.queueTail := by
  cases prev <;> rfl

theorem unlinkAt_keeps (it : Slot) (l : Level) (prev : Option Slot) (s : State) :
    Keeps s (unlinkAt it l prev s) := by
  cases prev with
  | none =>
    dsimp only [unlinkAt]
    refine Keeps.trans ?_ (Keeps.modify _ it rfl)
    exact Keeps.of_table rfl rfl rfl
  | some pr =>
    dsimp only [unlinkAt]
    refine Keeps.trans ?_ (Keeps.modify _ it rfl)
    refine Keeps.trans (Keeps.modify s pr (f := fun pcb => { pcb with next := (s.table it).next }) rfl) ?_
    exact Keeps.of_table rfl rfl rfl

/-- Splicing `p` out of level `l`, after `pre`: the list loses `p`. -/
theorem unlinkAt_queues (h : QueuesOk s qs) {pre post : List Slot}
    (split : qs l = pre ++ p :: post) :
    QueuesOk (unlinkAt p l pre.getLast? s) (Function.update qs l (pre ++ post)) := by
  have nodup : (pre ++ p :: post).Nodup := split ▸ h.nodup l
  have pPre : p ∉ pre := fun mem => (List.nodup_middle.mp nodup |> List.nodup_cons.mp).1
    (List.mem_append_left _ mem)
  have inLevel : ∀ r, r ∈ pre ∨ r = p ∨ r ∈ post → r ∈ qs l := by
    intro r mem; rw [split]; simp only [List.mem_append, List.mem_cons]; tauto
  have apart : ∀ r ∈ pre ++ post, ∀ q, q ≠ l → r ∉ qs q := by
    intro r mem q hq mem'
    rcases List.mem_append.mp mem with inPre | inPost
    · exact hq (h.disjoint mem' (inLevel r (.inl inPre)))
    · exact hq (h.disjoint mem' (inLevel r (.inr (.inr inPost))))
  refine h.update ?heads ?tails ?links ?chain ?tail apart
  case heads =>
    intro q hq
    rw [unlinkAt_queueHead]
    split <;> simp [hq]
  case tails =>
    intro q hq
    rw [unlinkAt_queueTail]
    split <;> simp [hq]
  case links =>
    -- the slots of other levels are neither `p` nor its predecessor
    intro q hq r mem
    have rp : r ≠ p := fun e => hq (h.disjoint mem (inLevel r (.inr (.inl e))))
    have notPred : pre.getLast? ≠ some r := fun last =>
      hq (h.disjoint mem (inLevel r (.inl (List.mem_of_getLast? last))))
    simp [unlinkAt_link, rp, notPred]
  case tail =>
    rw [unlinkAt_queueTail]
    split
    · next last =>
      rw [h.tail l, split] at last
      simp [eq_nil_of_getLast?_eq nodup last]
    · next last =>
      rw [h.tail l, split] at last ⊢
      have post_ne : post ≠ [] := by rintro rfl; simp at last
      exact getLast?_splice post_ne
  case chain =>
    have chain := split ▸ h.chain l
    cases hpre : pre.getLast? with
    | none =>
      obtain rfl : pre = [] := List.getLast?_eq_none_iff.mp hpre
      have head : s.queueHead l = some p := chain.head?
      rw [unlinkAt_queueHead, if_pos rfl, Function.update_self]
      refine (head ▸ chain).pop fun a mem => ?_
      have ap : a ≠ p := fun e => (List.nodup_cons.mp nodup).1 (e ▸ mem)
      simp [unlinkAt_link, ap]
    | some pr =>
      rw [unlinkAt_queueHead, if_neg (by simp)]
      have prp : pr ≠ p := fun e => pPre (e ▸ List.mem_of_getLast? hpre)
      refine chain.unlink hpre (by simp [unlinkAt_link, prp]) fun a mem apr => ?_
      have ap : a ≠ p := by
        rintro rfl
        rcases List.mem_append.mp mem with inPre | inPost
        · exact pPre inPre
        · exact (List.nodup_cons.mp (List.nodup_middle.mp nodup)).1 (List.mem_append_right _ inPost)
      simp [unlinkAt_link, ap, Ne.symm apr]

/-- The walk of `scheduler_dequeue` meets `p` after `mid` and splices it out there. -/
theorem unlinkFrom_found {post : List Slot} (mid : List Slot) :
    ∀ (fuel : Nat) (prev it : Option Slot), Chain (link s) it (mid ++ p :: post) → p ∉ mid →
      mid.length < fuel →
      unlinkFrom p l fuel prev it s = some (unlinkAt p l (prev.toList ++ mid).getLast? s) := by
  induction mid with
  | nil =>
    intro fuel prev it chain _ lt
    obtain ⟨fuel, rfl⟩ : ∃ f, fuel = f + 1 := ⟨fuel - 1, by simp at lt; omega⟩
    obtain rfl : it = some p := chain.head?
    cases prev <;> simp [unlinkFrom]
  | cons m mid ih =>
    intro fuel prev it chain missing lt
    obtain ⟨fuel, rfl⟩ : ∃ f, fuel = f + 1 := ⟨fuel - 1, by simp at lt; omega⟩
    have mp : m ≠ p := fun e => missing (e ▸ List.mem_cons_self)
    rw [List.cons_append] at chain
    cases chain with
    | cons tail =>
      rw [unlinkFrom, if_pos mp]
      change unlinkFrom p l fuel (some m) (link s m) s = _
      rw [ih fuel (some m) _ tail (fun mem => missing (List.mem_cons_of_mem m mem)) (by simp at lt; omega)]
      simp [List.getLast?_append, List.getLast?_cons]

theorem unlinkFrom_missing {it : Option Slot} {rest : List Slot} (chain : Chain (link s) it rest)
    (missing : p ∉ rest) : ∀ fuel prev, unlinkFrom p l fuel prev it s = none := by
  induction chain with
  | nil => intro fuel prev; cases fuel <;> rfl
  | @cons a rest tail ih =>
    intro fuel prev
    cases fuel with
    | zero => rfl
    | succ fuel =>
      have ap : a ≠ p := fun e => missing (e ▸ List.mem_cons_self)
      rw [unlinkFrom, if_pos ap]
      exact ih (fun mem => missing (List.mem_cons_of_mem a mem)) fuel (some a)

theorem dequeueFrom_of_mem (h : QueuesOk s qs) {pre post : List Slot}
    (split : qs l = pre ++ p :: post) :
    ∀ ls : List Level, l ∈ ls → dequeueFrom p ls s = unlinkAt p l pre.getLast? s
  | [], mem => absurd mem List.not_mem_nil
  | q :: ls, mem => by
    have inLevel : p ∈ qs l := by rw [split]; simp
    by_cases hq : q = l
    · subst hq
      have pPre : p ∉ pre := fun inPre =>
        (List.nodup_cons.mp (List.nodup_middle.mp (split ▸ h.nodup q))).1 (List.mem_append_left _ inPre)
      have short : pre.length < processMax + 1 := by
        have := h.length_le q
        rw [split] at this
        simp at this
        omega
      rw [dequeueFrom, unlinkFrom_found pre _ none _ (split ▸ h.chain q) pPre short]
      simp
    · have missing := unlinkFrom_missing (l := q) (h.chain q) fun mem' => hq (h.disjoint mem' inLevel)
      rw [dequeueFrom, missing]
      exact dequeueFrom_of_mem h split ls ((List.mem_cons.mp mem).resolve_left (Ne.symm hq))

theorem dequeueFrom_of_missing (h : QueuesOk s qs) (fresh : ∀ q, p ∉ qs q) :
    ∀ ls : List Level, dequeueFrom p ls s = s
  | [] => rfl
  | q :: ls => by
    rw [dequeueFrom, unlinkFrom_missing (h.chain q) (fresh q)]
    exact dequeueFrom_of_missing h fresh ls

theorem dequeue_queues (h : QueuesOk s qs) (p : Slot) : QueuesOk (dequeue p s) (drop qs p) := by
  by_cases queued : ∃ l, p ∈ qs l
  · obtain ⟨l, mem⟩ := queued
    obtain ⟨pre, post, split⟩ := List.append_of_mem mem
    have pPre : p ∉ pre := fun inPre =>
      (List.nodup_cons.mp (List.nodup_middle.mp (split ▸ h.nodup l))).1 (List.mem_append_left _ inPre)
    rw [dequeue, dequeueFrom_of_mem h split levels (List.mem_finRange l), h.drop_eq mem, split,
      List.erase_append_right _ pPre, List.erase_cons_head]
    exact unlinkAt_queues h split
  · have fresh : ∀ q, p ∉ qs q := fun q mem => queued ⟨q, mem⟩
    rw [dequeue, dequeueFrom_of_missing h fresh, drop_of_not_mem fresh]
    exact h

theorem dequeue_keeps (h : QueuesOk s qs) (p : Slot) : Keeps s (dequeue p s) := by
  by_cases queued : ∃ l, p ∈ qs l
  · obtain ⟨l, mem⟩ := queued
    obtain ⟨pre, post, split⟩ := List.append_of_mem mem
    rw [dequeue, dequeueFrom_of_mem h split levels (List.mem_finRange l)]
    exact unlinkAt_keeps p l _ s
  · rw [dequeue, dequeueFrom_of_missing h fun q mem => queued ⟨q, mem⟩]
    exact Keeps.refl s

/-! ### `pick_next` -/

theorem popHead_link (l : Level) (p : Slot) (s : State) (r : Slot) :
    link (popHead l p s) r = if r = p then none else link s r := by
  by_cases hr : r = p <;> simp [popHead, link, hr]

theorem popHead_queueHead (l : Level) (p : Slot) (s : State) :
    (popHead l p s).queueHead = Function.update s.queueHead l (link s p) := rfl

theorem popHead_queueTail (l : Level) (p : Slot) (s : State) :
    (popHead l p s).queueTail =
      if link s p = none then Function.update s.queueTail l none else s.queueTail := rfl

theorem popHead_keeps (l : Level) (p : Slot) (s : State) : Keeps s (popHead l p s) := by
  dsimp only [popHead]
  refine Keeps.trans ?_ (Keeps.modify _ p rfl)
  exact Keeps.of_table rfl rfl rfl

/-- Popping the head of level `l`. -/
theorem popHead_queues (h : QueuesOk s qs) {post : List Slot} (split : qs l = p :: post) :
    QueuesOk (popHead l p s) (Function.update qs l post) := by
  have chain := split ▸ h.chain l
  have head : s.queueHead l = some p := chain.head?
  have succ : link s p = post.head? := by
    have c := head ▸ chain
    cases c with | cons tail => exact tail.head?
  have pPost : p ∉ post := (List.nodup_cons.mp (split ▸ h.nodup l)).1
  have apart : ∀ r ∈ post, ∀ q, q ≠ l → r ∉ qs q := fun r mem q hq mem' =>
    hq (h.disjoint mem' (by rw [split]; exact List.mem_cons_of_mem p mem))
  refine h.update ?heads ?tails ?links ?chain ?tail apart
  case heads => intro q hq; simp [popHead_queueHead, hq]
  case tails => intro q hq; rw [popHead_queueTail]; split <;> simp [hq]
  case links =>
    intro q hq r mem
    have rp : r ≠ p := fun e => hq (h.disjoint mem (by rw [split, e]; exact List.mem_cons_self))
    simp [popHead_link, rp]
  case chain =>
    rw [popHead_queueHead, Function.update_self]
    refine (head ▸ chain).pop fun a mem => ?_
    have ap : a ≠ p := fun e => pPost (e ▸ mem)
    simp [popHead_link, ap]
  case tail =>
    rw [popHead_queueTail]
    split
    · next last =>
      rw [succ] at last
      simp [List.head?_eq_none_iff.mp last]
    · next last =>
      rw [h.tail l, split]
      cases post with
      | nil => simp [succ] at last
      | cons c post => simp

theorem pickFrom_spec (h : QueuesOk s qs) : ∀ ls : List Level,
    (pickFrom ls s = (none, s) ∧ ∀ q ∈ ls, qs q = []) ∨
      ∃ q ∈ ls, ∃ p post, qs q = p :: post ∧ pickFrom ls s = (some p, popHead q p s)
  | [] => .inl ⟨rfl, by simp⟩
  | q :: ls => by
    cases split : qs q with
    | nil =>
      have head : s.queueHead q = none := by rw [h.head q, split]; rfl
      rcases pickFrom_spec h ls with ⟨pick, empty⟩ | ⟨q', mem, p, post, split', pick⟩
      · left
        refine ⟨by simp [pickFrom, head, pick], ?_⟩
        intro q' mem
        rcases List.mem_cons.mp mem with rfl | mem
        · exact split
        · exact empty q' mem
      · right
        exact ⟨q', List.mem_cons_of_mem q mem, p, post, split', by simp [pickFrom, head, pick]⟩
    | cons p post =>
      have head : s.queueHead q = some p := by rw [h.head q, split]; rfl
      right
      exact ⟨q, List.mem_cons_self, p, post, split, by simp [pickFrom, head]⟩

theorem pickNext_spec (h : QueuesOk s qs) :
    (pickNext s = (none, s) ∧ ∀ q, qs q = []) ∨
      ∃ q p post, qs q = p :: post ∧ pickNext s = (some p, popHead q p s) := by
  rcases pickFrom_spec h levels with ⟨pick, empty⟩ | ⟨q, _, p, post, split, pick⟩
  · exact .inl ⟨pick, fun q => empty q (List.mem_finRange q)⟩
  · exact .inr ⟨q, p, post, split, pick⟩

theorem popHead_drop (h : QueuesOk s qs) {post : List Slot} (split : qs l = p :: post) :
    QueuesOk (popHead l p s) (drop qs p) := by
  have mem : p ∈ qs l := by rw [split]; exact List.mem_cons_self
  rw [h.drop_eq mem, split, List.erase_cons_head]
  exact popHead_queues h split

end OpenOS.Process
