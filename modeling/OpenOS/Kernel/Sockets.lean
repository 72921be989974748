import Mathlib
import OpenOS.Lib.Run

/-! The socket table of `kernel/network.c`: `MAX_SOCKETS` static slots, and a `socket_t *` is
the address of one of them, so a handle here is the slot's index and `NULL` is `none`. A
`const void *` or `ip_addr_t *` argument matters only through its null test, except the address
`net_socket_connect` copies. The device calls (`net_set_ip`, `net_send_packet`, ...) and
`net_checksum` are apart from the table.

What the table is for is a set of open handles from which `net_socket_create` hands out the
lowest free one (`SocketSpec`); the table refines it over every run from `net_init`. -/
namespace OpenOS.Network

/-- `ip_addr_t`. -/
structure IpAddr where
  addr : Fin 4 → UInt8

/-- `socket_t`. `is_open` is only ever 0 or 1. -/
structure Socket where
  id : UInt32
  localPort : UInt16
  remotePort : UInt16
  remoteIp : IpAddr
  protocol : UInt8
  isOpen : Bool

def maxSockets : Nat := 32

/-- The loop of `net_init` over the sockets: every slot closed. -/
def netInitSockets (sockets : Fin 32 → Socket) : Fin 32 → Socket :=
  (List.finRange 32).foldl (fun sockets i => Function.update sockets i { sockets i with isOpen := false }) sockets

/-- `net_socket_create(protocol)`: the first closed slot, or `NULL`. The remote address of the
slot is left as the last socket there had it. -/
def netSocketCreate (protocol : UInt8) (sockets : Fin 32 → Socket) : Option (Fin 32) × (Fin 32 → Socket) :=
  match (List.finRange 32).find? (fun i => !(sockets i).isOpen) with
  | some i =>
    (some i, Function.update sockets i
      { sockets i with id := i.val.toUInt32, protocol := protocol, localPort := 0, remotePort := 0, isOpen := true })
  | none => (none, sockets)

/-- `net_socket_bind(socket, port)`. -/
def netSocketBind (socket : Option (Fin 32)) (port : UInt16) (sockets : Fin 32 → Socket) : Int × (Fin 32 → Socket) :=
  match socket with
  | some i => if (sockets i).isOpen then (0, Function.update sockets i { sockets i with localPort := port })
    else (-1, sockets)
  | none => (-1, sockets)

/-- `net_socket_connect(socket, ip, port)`. -/
def netSocketConnect (socket : Option (Fin 32)) (ip : Option IpAddr) (port : UInt16) (sockets : Fin 32 → Socket) :
    Int × (Fin 32 → Socket) :=
  match socket, ip with
  | some i, some ip =>
    if (sockets i).isOpen then (0, Function.update sockets i { sockets i with remoteIp := ip, remotePort := port })
    else (-1, sockets)
  | _, _ => (-1, sockets)

/-- `net_socket_send(socket, data, size)`, with `data` for a non-null buffer: the `size_t` is
returned as an `int`. -/
def netSocketSend (socket : Option (Fin 32)) (data : Bool) (size : UInt32) (sockets : Fin 32 → Socket) : Int :=
  match socket with
  | some i => if (sockets i).isOpen ∧ data then size.toInt32.toInt else -1
  | none => -1

/-- `net_socket_recv(socket, buffer, size)`. -/
def netSocketRecv (socket : Option (Fin 32)) (buffer : Bool) (sockets : Fin 32 → Socket) : Int :=
  match socket with
  | some i => if (sockets i).isOpen ∧ buffer then 0 else -1
  | none => -1

/-- `net_socket_close(socket)`. -/
def netSocketClose (socket : Option (Fin 32)) (sockets : Fin 32 → Socket) : Fin 32 → Socket :=
  match socket with
  | some i => Function.update sockets i { sockets i with isOpen := false }
  | none => sockets

/-- The socket calls, with what the caller passes. -/
inductive SocketCall
  | create (protocol : UInt8)
  | bind (socket : Option (Fin 32)) (port : UInt16)
  | connect (socket : Option (Fin 32)) (ip : Option IpAddr) (port : UInt16)
  | send (socket : Option (Fin 32)) (data : Bool) (size : UInt32)
  | recv (socket : Option (Fin 32)) (buffer : Bool) (size : UInt32)
  | close (socket : Option (Fin 32))

/-- What a call returns: a socket pointer, or an `int`. -/
inductive SocketReply
  | handle (socket : Option (Fin 32))
  | status (value : Int)
  deriving DecidableEq, Repr

def SocketCall.apply : SocketCall → (Fin 32 → Socket) → (Fin 32 → Socket)
  | .create protocol, sockets => (netSocketCreate protocol sockets).2
  | .bind socket port, sockets => (netSocketBind socket port sockets).2
  | .connect socket ip port, sockets => (netSocketConnect socket ip port sockets).2
  | .send _ _ _, sockets => sockets
  | .recv _ _ _, sockets => sockets
  | .close socket, sockets => netSocketClose socket sockets

def SocketCall.reply : SocketCall → (Fin 32 → Socket) → List SocketReply
  | .create protocol, sockets => [.handle (netSocketCreate protocol sockets).1]
  | .bind socket port, sockets => [.status (netSocketBind socket port sockets).1]
  | .connect socket ip port, sockets => [.status (netSocketConnect socket ip port sockets).1]
  | .send socket data size, sockets => [.status (netSocketSend socket data size sockets)]
  | .recv socket buffer _, sockets => [.status (netSocketRecv socket buffer sockets)]
  | .close _, _ => []

/-! ### What the table is for -/

/-- The lowest handle not in `opened`. -/
def SocketSpec.fresh (opened : Finset (Fin 32)) : Option (Fin 32) :=
  if h : openedᶜ.Nonempty then some (openedᶜ.min' h) else none

/-- Whether a pointer is one of the open handles. -/
def SocketSpec.live (opened : Finset (Fin 32)) : Option (Fin 32) → Bool
  | some i => decide (i ∈ opened)
  | none => false

/-- The calls on the set of open handles: a create takes the lowest free handle, a close gives
its handle back, and the other calls fail on a handle that is not open. -/
def SocketSpec.apply : SocketCall → Finset (Fin 32) → Finset (Fin 32)
  | .create _, opened =>
    match SocketSpec.fresh opened with
    | some i => insert i opened
    | none => opened
  | .close (some i), opened => opened.erase i
  | _, opened => opened

def SocketSpec.reply : SocketCall → Finset (Fin 32) → List SocketReply
  | .create _, opened => [.handle (SocketSpec.fresh opened)]
  | .bind socket _, opened => [.status (if SocketSpec.live opened socket then 0 else -1)]
  | .connect socket ip _, opened => [.status (if SocketSpec.live opened socket ∧ ip.isSome then 0 else -1)]
  | .send socket data size, opened =>
    [.status (if SocketSpec.live opened socket ∧ data then size.toInt32.toInt else -1)]
  | .recv socket buffer _, opened => [.status (if SocketSpec.live opened socket ∧ buffer then 0 else -1)]
  | .close _, _ => []

/-! ### The table refines the set -/

/-- The open slots of the table. -/
def openSet (sockets : Fin 32 → Socket) : Finset (Fin 32) := Finset.univ.filter fun i => (sockets i).isOpen

/-- The table stands for a set of handles when its open slots are the set, and each open slot
holds its own index as `id`. -/
structure Represents (sockets : Fin 32 → Socket) (opened : Finset (Fin 32)) : Prop where
  open_eq : openSet sockets = opened
  id_eq : ∀ i, (sockets i).isOpen = true → (sockets i).id = i.val.toUInt32

/-- The search of a loop over `0 .. n - 1` that returns at the first index that passes: the
least such index. -/
theorem find_finRange_eq_min' {n : Nat} (p : Fin n → Bool) :
    (List.finRange n).find? p =
      if h : (Finset.univ.filter fun i => p i = true).Nonempty then some ((Finset.univ.filter fun i => p i = true).min' h)
      else none := by
  split
  · next found =>
    have passes : p ((Finset.univ.filter fun i => p i = true).min' found) = true :=
      (Finset.mem_filter.mp (Finset.min'_mem _ found)).2
    rw [List.find?_eq_some_iff_getElem]
    refine ⟨passes, ((Finset.univ.filter fun i => p i = true).min' found).val, by simp, by simp, ?_⟩
    intro j below
    -- an index below the least one that passes does not pass
    have fails : p ⟨j, by omega⟩ = false := by
      by_contra passesToo
      have least := Finset.min'_le (Finset.univ.filter fun i => p i = true) ⟨j, by omega⟩
        (Finset.mem_filter.mpr ⟨Finset.mem_univ _, by simpa using passesToo⟩)
      exact absurd below (not_lt.mpr least)
    simp [fails]
  · next none =>
    rw [List.find?_eq_none]
    intro x _ passes
    exact none ⟨x, Finset.mem_filter.mpr ⟨Finset.mem_univ x, passes⟩⟩

theorem netSocketCreate_fst (protocol : UInt8) (sockets : Fin 32 → Socket) :
    (netSocketCreate protocol sockets).1 = SocketSpec.fresh (openSet sockets) := by
  have closed : (Finset.univ.filter fun i => (!(sockets i).isOpen) = true) = (openSet sockets)ᶜ := by
    ext i
    simp [openSet]
  have search : (netSocketCreate protocol sockets).1 = (List.finRange 32).find? (fun i => !(sockets i).isOpen) := by
    unfold netSocketCreate
    split
    · next i found => exact found.symm
    · next none => exact none.symm
  rw [search, find_finRange_eq_min']
  simp only [closed, SocketSpec.fresh]

theorem openSet_update (sockets : Fin 32 → Socket) (i : Fin 32) (s : Socket) :
    openSet (Function.update sockets i s) = if s.isOpen then insert i (openSet sockets) else (openSet sockets).erase i := by
  ext j
  by_cases same : j = i
  · subst same
    split <;> simp_all [openSet]
  · split <;> simp [openSet, same]

theorem live_iff {opened : Finset (Fin 32)} {sockets : Fin 32 → Socket} (opens : openSet sockets = opened) (i : Fin 32) :
    SocketSpec.live opened (some i) = (sockets i).isOpen := by
  rw [SocketSpec.live, ← opens]
  simp [openSet]

section Refinement

variable {sockets : Fin 32 → Socket} {opened : Finset (Fin 32)}

theorem Represents.update_open (represents : Represents sockets opened) {i : Fin 32} (isOpen : (sockets i).isOpen = true)
    (s : Socket) (stays : s.isOpen = true) (same : s.id = (sockets i).id) :
    Represents (Function.update sockets i s) opened := by
  refine ⟨?_, ?_⟩
  · rw [openSet_update, if_pos stays, ← represents.open_eq]
    exact Finset.insert_eq_of_mem (by simp [openSet, isOpen])
  · intro j opens
    by_cases here : j = i
    · subst here
      simp only [Function.update_self] at opens ⊢
      rw [same, represents.id_eq j isOpen]
    · rw [Function.update_of_ne here] at opens ⊢
      exact represents.id_eq j opens

theorem Represents.create (represents : Represents sockets opened) (protocol : UInt8) :
    Represents (netSocketCreate protocol sockets).2 (SocketSpec.apply (.create protocol) opened) ∧
      (netSocketCreate protocol sockets).1 = SocketSpec.fresh opened := by
  have fst := netSocketCreate_fst protocol sockets
  rw [represents.open_eq] at fst
  refine ⟨?_, fst⟩
  unfold netSocketCreate at fst ⊢
  split
  · next i found =>
    rw [found] at fst
    simp only at fst
    simp only [SocketSpec.apply, ← fst]
    refine ⟨by rw [openSet_update, if_pos rfl, represents.open_eq], ?_⟩
    intro j opens
    by_cases here : j = i
    · subst here
      simp
    · rw [Function.update_of_ne here] at opens ⊢
      exact represents.id_eq j opens
  · next none =>
    rw [none] at fst
    simp only at fst
    simp only [SocketSpec.apply, ← fst]
    exact represents

/-- Each call of the table does to the set of open handles what `SocketSpec` does, and answers
as `SocketSpec` answers. -/
theorem Represents.apply (represents : Represents sockets opened) (c : SocketCall) :
    Represents (c.apply sockets) (SocketSpec.apply c opened) ∧ c.reply sockets = SocketSpec.reply c opened := by
  cases c with
  | create protocol =>
    obtain ⟨after, handle⟩ := represents.create protocol
    exact ⟨after, by rw [SocketCall.reply, SocketSpec.reply, handle]⟩
  | bind socket port =>
    cases socket with
    | none => exact ⟨represents, rfl⟩
    | some i =>
      simp only [SocketCall.apply, SocketCall.reply, SocketSpec.apply, SocketSpec.reply, netSocketBind,
        live_iff represents.open_eq i]
      split
      · next isOpen => exact ⟨represents.update_open isOpen _ isOpen rfl, rfl⟩
      · exact ⟨represents, rfl⟩
  | connect socket ip port =>
    cases socket with
    | none => exact ⟨represents, rfl⟩
    | some i =>
      cases ip with
      | none => exact ⟨represents, by simp [SocketCall.reply, SocketSpec.reply, netSocketConnect]⟩
      | some ip =>
        simp only [SocketCall.apply, SocketCall.reply, SocketSpec.apply, SocketSpec.reply, netSocketConnect,
          live_iff represents.open_eq i, Option.isSome_some, and_true]
        split
        · next isOpen => exact ⟨represents.update_open isOpen _ isOpen rfl, rfl⟩
        · exact ⟨represents, rfl⟩
  | send socket data size =>
    cases socket with
    | none => exact ⟨represents, rfl⟩
    | some i => exact ⟨represents, by simp [SocketCall.reply, SocketSpec.reply, netSocketSend, live_iff represents.open_eq i]⟩
  | recv socket buffer size =>
    cases socket with
    | none => exact ⟨represents, rfl⟩
    | some i => exact ⟨represents, by simp [SocketCall.reply, SocketSpec.reply, netSocketRecv, live_iff represents.open_eq i]⟩
  | close socket =>
    cases socket with
    | none => exact ⟨represents, rfl⟩
    | some i =>
      refine ⟨⟨?_, ?_⟩, rfl⟩
      · rw [SocketCall.apply, netSocketClose, openSet_update, if_neg (by simp), represents.open_eq]
        rfl
      · intro j opens
        by_cases here : j = i
        · subst here
          simp [SocketCall.apply, netSocketClose] at opens
        · simp only [SocketCall.apply, netSocketClose, Function.update_of_ne here] at opens ⊢
          exact represents.id_eq j opens

end Refinement

theorem represents_netInitSockets (sockets : Fin 32 → Socket) : Represents (netInitSockets sockets) ∅ := by
  have closed : ∀ i, (netInitSockets sockets i).isOpen = false := by
    intro i
    have loop : ∀ (l : List (Fin 32)) (t : Fin 32 → Socket), i ∈ l ∨ (t i).isOpen = false →
        (l.foldl (fun t i => Function.update t i { t i with isOpen := false }) t i).isOpen = false := by
      intro l
      induction l with
      | nil => intro t h; simpa using h
      | cons j l ih =>
        intro t h
        rw [List.foldl_cons]
        apply ih
        by_cases here : i = j
        · subst here
          right
          simp
        · rcases h with mem | closed
          · exact Or.inl ((List.mem_cons.mp mem).resolve_left here)
          · right
            simp [Function.update_of_ne here, closed]
    exact loop _ sockets (Or.inl (List.mem_finRange i))
  refine ⟨?_, fun i opens => absurd opens (by rw [closed i]; decide)⟩
  ext i
  simp [openSet, closed i]

/-- Over every run of the socket calls after `net_init`, whatever the slots held before: the
table answers every call as the set of open handles does, where a create takes the lowest free
handle of the 32 or fails when all are open and the other calls fail on a handle not open; its
open slots are that set; and every open slot carries its own index as `id`. -/
theorem sockets_refine_handle_set (sockets : Fin 32 → Socket) (calls : List SocketCall) :
    Runs.outputs SocketCall.apply SocketCall.reply calls (netInitSockets sockets) =
        Runs.outputs SocketSpec.apply SocketSpec.reply calls ∅ ∧
      openSet (Runs.run SocketCall.apply calls (netInitSockets sockets)) = Runs.run SocketSpec.apply calls ∅ ∧
      ∀ i, (Runs.run SocketCall.apply calls (netInitSockets sockets) i).isOpen = true →
        (Runs.run SocketCall.apply calls (netInitSockets sockets) i).id = i.val.toUInt32 := by
  have simulated : Represents (Runs.run SocketCall.apply calls (netInitSockets sockets)) (Runs.run SocketSpec.apply calls ∅) ∧
      Runs.outputs SocketCall.apply SocketCall.reply calls (netInitSockets sockets) =
        Runs.outputs SocketSpec.apply SocketSpec.reply calls ∅ :=
    Runs.simulate SocketSpec.apply Represents SocketCall.reply SocketSpec.reply (fun c _ _ r => r.apply c)
      (represents_netInitSockets sockets)
  exact ⟨simulated.2, simulated.1.open_eq, simulated.1.id_eq⟩

end OpenOS.Network
