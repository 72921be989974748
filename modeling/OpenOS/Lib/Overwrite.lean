import Mathlib
import OpenOS.Lib.Run

/-! Memories written one cell at a time. After a sequence of writes, oldest first, a cell holds
the value of the last write to it, or what it held before when no write reached it. Drawing
into a framebuffer and stacking windows are such sequences: the last painter of a pixel wins. -/
namespace Overwrite

variable {κ κ' α β : Type} [DecidableEq κ] [DecidableEq κ']

/-- The value of the last write to `k` in a list of writes, oldest first. -/
def lastWrite : List (κ × β) → κ → Option β
  | [], _ => none
  | w :: rest, k => (lastWrite rest k).or (if w.1 = k then some w.2 else none)

/-- The writes done in order on a memory. -/
def apply (writes : List (κ × β)) (f : κ → β) : κ → β :=
  writes.foldl (fun f w => Function.update f w.1 w.2) f

@[simp] theorem lastWrite_nil (k : κ) : lastWrite ([] : List (κ × β)) k = none := rfl

theorem lastWrite_cons (w : κ × β) (rest : List (κ × β)) (k : κ) :
    lastWrite (w :: rest) k = (lastWrite rest k).or (if w.1 = k then some w.2 else none) := rfl

theorem apply_eq (writes : List (κ × β)) (f : κ → β) (k : κ) :
    apply writes f k = (lastWrite writes k).getD (f k) := by
  induction writes generalizing f with
  | nil => rfl
  | cons w rest ih =>
    rw [apply, List.foldl_cons, ← apply, ih, lastWrite_cons]
    by_cases here : w.1 = k
    · subst here
      cases lastWrite rest w.1 <;> simp
    · cases lastWrite rest k <;> simp [Function.update_of_ne (Ne.symm here), here]

theorem lastWrite_append (a b : List (κ × β)) (k : κ) :
    lastWrite (a ++ b) k = (lastWrite b k).or (lastWrite a k) := by
  induction a with
  | nil => simp
  | cons w a ih => rw [List.cons_append, lastWrite_cons, ih, lastWrite_cons, Option.or_assoc]

theorem lastWrite_eq_none_iff (writes : List (κ × β)) (k : κ) :
    lastWrite writes k = none ↔ ∀ w ∈ writes, w.1 ≠ k := by
  induction writes with
  | nil => simp
  | cons w rest ih =>
    rw [lastWrite_cons, Option.or_eq_none_iff, ih, List.forall_mem_cons]
    by_cases here : w.1 = k <;> simp [here, and_comm]

theorem lastWrite_graph (cells : List κ) (f : κ → β) (k : κ) :
    lastWrite (cells.map fun c => (c, f c)) k = if k ∈ cells then some (f k) else none := by
  induction cells with
  | nil => simp
  | cons c cells ih =>
    rw [List.map_cons, lastWrite_cons, ih]
    by_cases later : k ∈ cells
    · simp [later]
    · by_cases here : c = k
      · subst here
        simp [later]
      · simp [later, here, Ne.symm here]

theorem lastWrite_map_fst (g : κ → κ') (writes : List (κ × β)) {k : κ}
    (oneToOne : ∀ w ∈ writes, g w.1 = g k → w.1 = k) :
    lastWrite (writes.map fun w => (g w.1, w.2)) (g k) = lastWrite writes k := by
  induction writes with
  | nil => rfl
  | cons w rest ih =>
    rw [List.map_cons, lastWrite_cons, lastWrite_cons, ih (fun v mem => oneToOne v (List.mem_cons_of_mem w mem))]
    by_cases here : w.1 = k
    · simp [here]
    · have apart : g w.1 ≠ g k := fun same => here (oneToOne w List.mem_cons_self same)
      simp [here, apart]

theorem lastWrite_flatMap (writers : List α) (writes : α → List (κ × β)) (k : κ) :
    lastWrite (writers.flatMap writes) k = writers.reverse.findSome? fun x => lastWrite (writes x) k := by
  induction writers with
  | nil => rfl
  | cons x writers ih =>
    rw [List.flatMap_cons, lastWrite_append, ih, List.reverse_cons, List.findSome?_append]
    cases (writers.reverse.findSome? fun x => lastWrite (writes x) k) <;> simp

theorem findSome_of_first {R : α → α → Prop} {f : α → Option β} {l : List α} (ordered : l.Pairwise R)
    {a : α} (mem : a ∈ l) {b : β} (value : f a = some b) (first : ∀ x ∈ l, R x a → f x = none) :
    l.findSome? f = some b := by
  induction l with
  | nil => cases mem
  | cons x l ih =>
    rw [List.pairwise_cons] at ordered
    rcases List.mem_cons.mp mem with rfl | later
    · rw [List.findSome?_cons, value]
    · have none : f x = none := first x List.mem_cons_self (ordered.1 a later)
      rw [List.findSome?_cons, none]
      exact ih ordered.2 later fun y mem => first y (List.mem_cons_of_mem x mem)

/-- A run of calls, each of which writes some cells of what `read` reads and keeps `inv`: a
cell ends with the last value the run writes to it, or the value it started with. -/
theorem run_lastWrite {S C : Type} (step : C → S → S) (read : S → κ → β) (writes : C → List (κ × β))
    (inv : S → Prop) (ok : C → Prop) (keep : ∀ c s, inv s → ok c → inv (step c s)) {k : κ}
    (law : ∀ c s, inv s → ok c → read (step c s) k = (lastWrite (writes c) k).getD (read s k)) :
    ∀ (calls : List C) (s : S), inv s → (∀ c ∈ calls, ok c) →
      inv (Runs.run step calls s) ∧
        read (Runs.run step calls s) k = (lastWrite (calls.flatMap writes) k).getD (read s k) := by
  intro calls
  induction calls with
  | nil => exact fun s start _ => ⟨start, rfl⟩
  | cons c calls ih =>
    intro s start allowed
    have here := allowed c List.mem_cons_self
    obtain ⟨after, value⟩ := ih (step c s) (keep c s start here) fun d mem => allowed d (List.mem_cons_of_mem c mem)
    refine ⟨after, ?_⟩
    rw [Runs.run_cons, value, law c s start here, List.flatMap_cons, lastWrite_append, Option.getD_or]

end Overwrite
