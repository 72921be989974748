import Mathlib

/-! Singly linked lists threaded through a successor map. `Chain next x l` says that
following `next` from the optional pointer `x` visits exactly the nodes `l` and then
reaches `none`; a finite derivation rules out cycles. The lemmas are the frame, append,
pop and unlink rules that intrusive queues need. -/
namespace Linked

variable {α : Type}

inductive Chain (next : α → Option α) : Option α → List α → Prop
  | nil : Chain next none []
  | cons {a : α} {l : List α} : Chain next (next a) l → Chain next (some a) (a :: l)

variable {next next' : α → Option α}

theorem Chain.none_iff {l : List α} : Chain next none l ↔ l = [] := by
  constructor
  · intro h; cases h; rfl
  · rintro rfl; exact .nil

theorem Chain.some_iff {a : α} {l : List α} :
    Chain next (some a) l ↔ ∃ rest, l = a :: rest ∧ Chain next (next a) rest := by
  constructor
  · intro h; cases h with | cons h => exact ⟨_, rfl, h⟩
  · rintro ⟨rest, rfl, h⟩; exact .cons h

theorem Chain.unique {x : Option α} {l l' : List α} (h : Chain next x l)
    (h' : Chain next x l') : l = l' := by
  induction h generalizing l' with
  | nil => exact (Chain.none_iff.mp h').symm
  | cons _ ih =>
    obtain ⟨rest, rfl, tail⟩ := Chain.some_iff.mp h'
    rw [ih tail]

theorem Chain.head? {x : Option α} {l : List α} (h : Chain next x l) : x = l.head? := by
  cases h <;> rfl

theorem Chain.suffix {x : Option α} {l : List α} {b : α} (h : Chain next x l) (member : b ∈ l) :
    ∃ pre post, l = pre ++ b :: post ∧ Chain next (some b) (b :: post) := by
  induction h with
  | nil => simp at member
  | @cons a l tail ih =>
    by_cases same : a = b
    · subst same; exact ⟨[], l, rfl, .cons tail⟩
    · have inTail : b ∈ l := by simpa [Ne.symm same] using member
      obtain ⟨pre, post, rfl, chain⟩ := ih inTail
      exact ⟨a :: pre, post, rfl, chain⟩

theorem Chain.nodup {x : Option α} {l : List α} (h : Chain next x l) : l.Nodup := by
  induction h with
  | nil => exact List.nodup_nil
  | @cons a l tail ih =>
    refine List.nodup_cons.mpr ⟨fun member => ?_, ih⟩
    obtain ⟨pre, post, rfl, chain⟩ := tail.suffix member
    have same := (Chain.cons tail).unique chain
    simp only [List.cons.injEq, true_and] at same
    have lengths := congrArg List.length same
    simp only [List.length_append, List.length_cons] at lengths
    omega

theorem Chain.length_le [Fintype α] {x : Option α} {l : List α} (h : Chain next x l) :
    l.length ≤ Fintype.card α :=
  h.nodup.length_le_card

theorem Chain.frame {x : Option α} {l : List α} (h : Chain next x l)
    (agree : ∀ a ∈ l, next' a = next a) : Chain next' x l := by
  induction h with
  | nil => exact .nil
  | @cons a l tail ih =>
    refine .cons ?_
    rw [agree a (by simp)]
    exact ih (fun b member => agree b (by simp [member]))

/-- Appending a fresh node after the last one. -/
theorem Chain.snoc {x : Option α} {l : List α} {last b : α} (h : Chain next x l)
    (lastEq : l.getLast? = some last) (fresh : b ∉ l)
    (agree : ∀ a ∈ l, a ≠ last → next' a = next a)
    (link : next' last = some b) (ends : next' b = none) : Chain next' x (l ++ [b]) := by
  induction h with
  | nil => simp at lastEq
  | @cons a l tail ih =>
    refine .cons ?_
    cases l with
    | nil =>
      simp only [List.getLast?_singleton, Option.some.injEq] at lastEq
      subst lastEq
      rw [link]
      exact .cons (by rw [ends]; exact .nil)
    | cons c l =>
      have notLast : a ≠ last := by
        rintro rfl
        have lastIn : a ∈ c :: l := List.mem_of_getLast? (by simpa using lastEq)
        exact (List.nodup_cons.mp (Chain.cons tail).nodup).1 lastIn
      rw [agree a (by simp) notLast]
      exact ih (by simpa using lastEq) (fun member => fresh (by simp [member]))
        (fun d member ne => agree d (by simp [member]) ne)

theorem Chain.singleton {b : α} (ends : next b = none) : Chain next (some b) [b] :=
  .cons (by rw [ends]; exact .nil)

theorem Chain.pop {b : α} {post : List α} (h : Chain next (some b) (b :: post))
    (agree : ∀ a ∈ post, next' a = next a) : Chain next' (next b) post := by
  cases h with
  | cons tail => exact tail.frame agree

/-- Removing a node after the prefix `pre`, whose last node `p` takes its successor;
every other node keeps its link. -/
theorem Chain.unlink {x : Option α} {pre post : List α} {p b : α}
    (h : Chain next x (pre ++ b :: post)) (lastEq : pre.getLast? = some p)
    (relink : next' p = next b) (agree : ∀ a ∈ pre ++ post, a ≠ p → next' a = next a) :
    Chain next' x (pre ++ post) := by
  induction pre generalizing x with
  | nil => simp at lastEq
  | cons a pre ih =>
    cases h with
    | cons tail =>
    refine .cons ?_
    cases pre with
    | nil =>
      simp only [List.getLast?_singleton, Option.some.injEq] at lastEq
      subst lastEq
      change Chain next (next a) (b :: post) at tail
      change Chain next' (next' a) post
      rw [relink]
      have link : next a = some b := by simpa using tail.head?
      have fresh : a ∉ post := fun member =>
        (List.nodup_cons.mp (Chain.cons tail).nodup).1 (by simp [member])
      exact Chain.pop (link ▸ tail) (fun d member => agree d (by simp [member])
        (fun same => fresh (same ▸ member)))
    | cons c pre =>
      have lastIn : p ∈ c :: pre := List.mem_of_getLast? (by simpa using lastEq)
      have notLast : a ≠ p := by
        rintro rfl
        exact (List.nodup_cons.mp (Chain.cons tail).nodup).1 (List.mem_append.mpr (.inl lastIn))
      rw [agree a (by simp) notLast]
      exact ih tail (by simpa using lastEq)
        (fun d member ne => agree d (List.mem_cons_of_mem a member) ne)

theorem Chain.next_of_append {x : Option α} {pre post : List α} {b : α}
    (h : Chain next x (pre ++ b :: post)) : next b = post.head? := by
  induction pre generalizing x with
  | nil => cases h with | cons tail => exact tail.head?
  | cons a pre ih => cases h with | cons tail => exact ih tail

theorem getLast?_splice {pre post : List α} {b : α} (h : post ≠ []) :
    (pre ++ b :: post).getLast? = (pre ++ post).getLast? := by
  obtain ⟨init, last, rfl⟩ := (List.eq_nil_or_concat post).resolve_left h
  rw [List.concat_eq_append, ← List.cons_append, ← List.append_assoc, ← List.append_assoc, List.getLast?_concat,
    List.getLast?_concat]

theorem eq_nil_of_getLast?_eq {pre post : List α} {b : α} (nodup : (pre ++ b :: post).Nodup)
    (h : (pre ++ b :: post).getLast? = some b) : post = [] := by
  by_contra ne
  obtain ⟨init, last, rfl⟩ := (List.eq_nil_or_concat post).resolve_left ne
  rw [List.concat_eq_append] at nodup h
  have same : last = b := by
    rw [← List.cons_append, ← List.append_assoc, List.getLast?_concat] at h
    exact Option.some.inj h
  subst same
  have tailNodup := (List.nodup_append.mp nodup).2.1
  exact (List.nodup_cons.mp tailNodup).1 (by simp)

end Linked
