import Mathlib

/-! Runs of a deterministic step function over a list of calls. A run may be restricted
to calls that are admissible in the state they are made in; the induction rule turns a
one-call preservation lemma into a statement about every admissible run. -/
namespace Runs

variable {S C : Type}

/-- Apply each call of the list in turn. -/
def run (step : C → S → S) : List C → S → S
  | [], s => s
  | c :: calls, s => run step calls (step c s)

/-- Every call of the run is admissible in the state it is made in. -/
def Admissible (ok : S → C → Prop) (step : C → S → S) : List C → S → Prop
  | [], _ => True
  | c :: calls, s => ok s c ∧ Admissible ok step calls (step c s)

variable {step : C → S → S} {ok : S → C → Prop}

@[simp] theorem run_nil (s : S) : run step [] s = s := rfl

@[simp] theorem run_cons (c : C) (calls : List C) (s : S) :
    run step (c :: calls) s = run step calls (step c s) := rfl

theorem run_append (first second : List C) (s : S) :
    run step (first ++ second) s = run step second (run step first s) := by
  induction first generalizing s with
  | nil => rfl
  | cons c first ih => exact ih (step c s)

theorem admissible_append (first second : List C) (s : S) :
    Admissible ok step (first ++ second) s ↔
      Admissible ok step first s ∧ Admissible ok step second (run step first s) := by
  induction first generalizing s with
  | nil => simp [Admissible]
  | cons c first ih => simp [Admissible, ih, and_assoc]

theorem admissible_const {P : C → Prop} {calls : List C} {s : S} :
    Admissible (fun _ c => P c) step calls s ↔ ∀ c ∈ calls, P c := by
  induction calls generalizing s with
  | nil => simp [Admissible]
  | cons c calls ih => simp [Admissible, ih]

theorem run_invariant (inv : S → Prop) (preserve : ∀ s c, inv s → ok s c → inv (step c s))
    {calls : List C} {s : S} (start : inv s) (admissible : Admissible ok step calls s) :
    inv (run step calls s) := by
  induction calls generalizing s with
  | nil => exact start
  | cons c calls ih => exact ih (preserve s c start admissible.1) admissible.2

theorem run_invariant_all (inv : S → Prop) (preserve : ∀ s c, inv s → inv (step c s))
    {calls : List C} {s : S} (start : inv s) : inv (run step calls s) := by
  induction calls generalizing s with
  | nil => exact start
  | cons c calls ih => exact ih (preserve s c start)

theorem foldl_invariant {α : Type} (inv : S → Prop) {f : S → α → S} {l : List α}
    (preserve : ∀ s a, a ∈ l → inv s → inv (f s a)) {s : S} (start : inv s) :
    inv (l.foldl f s) := by
  induction l generalizing s with
  | nil => exact start
  | cons a l ih =>
    exact ih (fun t b mem => preserve t b (List.mem_cons_of_mem a mem))
      (preserve s a List.mem_cons_self start)

/-- What a run emits, call by call. -/
def outputs {α : Type} (step : C → S → S) (out : C → S → List α) : List C → S → List α
  | [], _ => []
  | c :: calls, s => out c s ++ outputs step out calls (step c s)

@[simp] theorem outputs_nil {α : Type} (out : C → S → List α) (s : S) :
    outputs step out [] s = [] := rfl

@[simp] theorem outputs_cons {α : Type} (out : C → S → List α) (c : C) (calls : List C) (s : S) :
    outputs step out (c :: calls) s = out c s ++ outputs step out calls (step c s) := rfl

theorem count_le_run (inv : S → Prop) (count : S → Nat) (keep : ∀ c s, inv s → inv (step c s))
    (mono : ∀ c s, inv s → count s ≤ count (step c s)) {calls : List C} {s : S} (start : inv s) :
    count s ≤ count (run step calls s) := by
  induction calls generalizing s with
  | nil => exact Nat.le_refl _
  | cons c calls ih => exact Nat.le_trans (mono c s start) (ih (keep c s start))

/-- When each call emits `g i` for the values `i` its counter passes, a run emits `g i` for
every value from the counter's start to its end, in order. -/
theorem outputs_counter {α : Type} (inv : S → Prop) (count : S → Nat) (g : Nat → α)
    (out : C → S → List α) (keep : ∀ c s, inv s → inv (step c s))
    (law : ∀ c s, inv s → count s ≤ count (step c s) ∧
      out c s = (List.range' (count s) (count (step c s) - count s)).map g)
    {calls : List C} {s : S} (start : inv s) :
    outputs step out calls s = (List.range' (count s) (count (run step calls s) - count s)).map g := by
  induction calls generalizing s with
  | nil => simp
  | cons c calls ih =>
    obtain ⟨mono, emitted⟩ := law c s start
    have later : count (step c s) ≤ count (run step calls (step c s)) :=
      count_le_run inv count keep (fun c s h => (law c s h).1) (keep c s start)
    rw [outputs_cons, run_cons, emitted, ih (keep c s start), ← List.map_append]
    -- the values of this call and those of the rest of the run join up
    have joined := List.range'_append_1 (s := count s) (m := count (step c s) - count s)
      (n := count (run step calls (step c s)) - count (step c s))
    rw [Nat.add_sub_cancel' mono] at joined
    rw [joined]
    congr 2
    omega

theorem simulate {A α : Type} (step' : C → A → A) (R : S → A → Prop) (out : C → S → List α)
    (out' : C → A → List α) (sim : ∀ c s a, R s a → R (step c s) (step' c a) ∧ out c s = out' c a)
    {calls : List C} {s : S} {a : A} (start : R s a) :
    R (run step calls s) (run step' calls a) ∧ outputs step out calls s = outputs step' out' calls a := by
  induction calls generalizing s a with
  | nil => exact ⟨start, rfl⟩
  | cons c calls ih =>
    obtain ⟨related, same⟩ := sim c s a start
    obtain ⟨after, rest⟩ := ih related
    exact ⟨after, by rw [outputs_cons, outputs_cons, same, rest]⟩

end Runs
